import VorbisTrack.Proofs.Storage.FileTree
import VorbisTrack.Storage.OutputFile

/-!
# What has been written to a file

Bytes that have been written are in the tree or held back. `OutputFile.Holds` takes both together,
so that writing appends to them, whether it passes bytes on or not, and passing them on changes
nothing. `OutputFile.Appends` says so of a step, and of several steps one after the other.
-/

set_option autoImplicit false

namespace VorbisTrack.OutputFile

/-- The bytes that have been written: those in the tree, then those that wait. -/
def Holds (file : OutputFile) (tree : FileTree) (bytes : Bytes) : Prop :=
  ∃ passed, tree.node? file.location = some (.file passed) ∧ passed.length = file.offset ∧
    passed ++ file.held = bytes

@[simp] theorem location_makeRoom (file : OutputFile) (count : Nat) (tree : FileTree) :
    (file.makeRoom count tree).1.location = file.location := by
  unfold makeRoom
  split <;> rfl

@[simp] theorem location_write (file : OutputFile) (bytes : Bytes) (tree : FileTree) :
    (file.write bytes tree).1.location = file.location := by
  unfold write
  split <;> exact location_makeRoom ..

/-! ## Other files -/

theorem changesOnly_flush (file : OutputFile) (tree : FileTree) :
    tree.ChangesOnly file.location (file.flush tree).2 :=
  tree.changesOnly_writeAt ..

theorem changesOnly_makeRoom (file : OutputFile) (count : Nat) (tree : FileTree) :
    tree.ChangesOnly file.location (file.makeRoom count tree).2 := by
  unfold makeRoom
  split
  · exact changesOnly_flush file tree
  · exact .refl ..

theorem changesOnly_write (file : OutputFile) (bytes : Bytes) (tree : FileTree) :
    tree.ChangesOnly file.location (file.write bytes tree).2 := by
  have room := changesOnly_makeRoom file bytes.length tree
  unfold write
  split
  · exact room
  · refine room.trans ?_
    rw [← location_makeRoom file bytes.length tree]
    exact FileTree.changesOnly_writeAt ..

/-! ## The bytes of the file -/

/-- When room is made for as many bytes as can be held back at most, none wait any more. -/
theorem held_makeRoom (file : OutputFile) {count : Nat} (many : capacity ≤ count)
    (tree : FileTree) : (file.makeRoom count tree).1.held = [] := by
  unfold makeRoom
  split
  · rfl
  · next room =>
    have : 0 < capacity := by decide
    apply List.eq_nil_of_length_eq_zero
    show file.held.length = 0
    omega

namespace Holds

variable {file : OutputFile} {tree : FileTree} {bytes : Bytes}

/-- The position is the end of what has been written. -/
theorem position (h : file.Holds tree bytes) : file.position = bytes.length := by
  obtain ⟨passed, -, offset, rfl⟩ := h
  rw [OutputFile.position, ← offset, List.length_append]

/-- When nothing waits, all that has been written is in the tree. -/
theorem node?_flush (h : file.Holds tree bytes) :
    (file.flush tree).2.node? file.location = some (.file bytes) := by
  obtain ⟨passed, stands, offset, rfl⟩ := h
  show (tree.writeAt file.location file.offset file.held).node? file.location = _
  rw [← offset]
  exact FileTree.node?_writeAt stands file.held

theorem flush (h : file.Holds tree bytes) : (file.flush tree).1.Holds (file.flush tree).2 bytes :=
  ⟨bytes, h.node?_flush, h.position.symm, List.append_nil bytes⟩

theorem makeRoom (h : file.Holds tree bytes) (count : Nat) :
    (file.makeRoom count tree).1.Holds (file.makeRoom count tree).2 bytes := by
  unfold OutputFile.makeRoom
  split
  · exact h.flush
  · exact h

/-- Bytes that are written join the file's. -/
theorem write (h : file.Holds tree bytes) (more : Bytes) :
    (file.write more tree).1.Holds (file.write more tree).2 (bytes ++ more) := by
  obtain ⟨passed, stands, offset, whole⟩ := h.makeRoom more.length
  unfold OutputFile.write
  by_cases few : more.length < capacity
  · simp only [few, if_true]
    refine ⟨passed, stands, offset, ?_⟩
    show passed ++ (_ ++ more) = bytes ++ more
    rw [← List.append_assoc, whole]
  · -- As many bytes go past those that wait, so there must be none.
    have nothing : (file.makeRoom more.length tree).1.held = [] :=
      held_makeRoom file (by omega) tree
    rw [nothing, List.append_nil] at whole
    subst whole
    simp only [few, if_false]
    refine ⟨passed ++ more, ?_, ?_, ?_⟩
    · rw [← offset]
      exact FileTree.node?_writeAt stands more
    · rw [List.length_append, offset]
    · rw [nothing, List.append_nil]

end Holds

/-! ## Steps -/

/-- From one state of a file and its tree to another, bytes have been written, and no other file has
changed. -/
structure Appends (bytes : Bytes) (before after : OutputFile × FileTree) : Prop where
  location : after.1.location = before.1.location
  tree : before.2.ChangesOnly before.1.location after.2
  holds : ∀ prior, before.1.Holds before.2 prior → after.1.Holds after.2 (prior ++ bytes)

theorem Appends.refl (s : OutputFile × FileTree) : Appends [] s s where
  location := rfl
  tree := .refl s.1.location s.2
  holds prior h := by rwa [List.append_nil]

theorem Appends.trans {bytes more : Bytes} {s s' s'' : OutputFile × FileTree}
    (first : Appends bytes s s') (second : Appends more s' s'') :
    Appends (bytes ++ more) s s'' where
  location := second.location.trans first.location
  tree := first.tree.trans (first.location ▸ second.tree)
  holds prior h := by
    rw [← List.append_assoc]
    exact second.holds _ (first.holds prior h)

theorem appends_write (file : OutputFile) (bytes : Bytes) (tree : FileTree) :
    Appends bytes (file, tree) (file.write bytes tree) :=
  ⟨location_write .., changesOnly_write .., fun _ h => h.write bytes⟩

theorem appends_flush (file : OutputFile) (tree : FileTree) :
    Appends [] (file, tree) (file.flush tree) := by
  refine ⟨rfl, changesOnly_flush .., ?_⟩
  intro prior h
  rw [List.append_nil]
  exact h.flush

end VorbisTrack.OutputFile
