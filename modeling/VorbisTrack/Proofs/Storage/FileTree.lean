import VorbisTrack.Storage.FileTree

/-!
# Changes of one file

Making a file and writing into it change the tree at one location only. Directories stay what they
are, so every path that could be followed leads to where it led before (`ChangesOnly.locate`), and
all other files read as they did (`ChangesOnly.read`).
-/

set_option autoImplicit false

namespace VorbisTrack.FileTree

/-! ## Entries -/

theorem lookup_insertEntry (location l : Location) (node : Node)
    (entries : List (Location × Node)) :
    (insertEntry location node entries).lookup l =
      if l = location then some node else entries.lookup l := by
  -- By induction on the entries. One that stands at the location is replaced, and the others stay.
  induction entries with
  | nil =>
    by_cases h : l = location
    · simp [insertEntry, h]
    · have apart : (l == location) = false := beq_false_of_ne h
      simp [insertEntry, h, apart, List.lookup_cons]
  | cons entry rest ih =>
    obtain ⟨k, n⟩ := entry
    by_cases here : k = location
    · subst here
      by_cases h : l = k
      · simp [insertEntry, h]
      · have apart : (l == k) = false := beq_false_of_ne h
        simp [insertEntry, h, apart, List.lookup_cons]
    · by_cases h : l = k
      · subst h
        simp [insertEntry, here]
      · have apart : (l == k) = false := beq_false_of_ne h
        simp [insertEntry, here, apart, List.lookup_cons, ih]

theorem node?_put (t : FileTree) {location : Location} (below : location ≠ []) (node : Node)
    (l : Location) :
    (t.put location node).node? l = if l = location then some node else t.node? l := by
  by_cases root : l = []
  · subst root
    rw [if_neg (Ne.symm below)]
    rfl
  · simp only [node?, put, List.isEmpty_iff, root, if_false]
    exact lookup_insertEntry location l node t.entries

/-- A file does not stand at the root. -/
theorem ne_nil_of_node? {t : FileTree} {location : Location}
    (h : t.node? location ≠ some .directory) : location ≠ [] := by
  rintro rfl
  exact h rfl

/-! ## Changes at one location -/

/-- The tree `t'` is `t` but for what stands at one location, where no directory goes away. -/
structure ChangesOnly (location : Location) (t t' : FileTree) : Prop where
  workingDirectory : t'.workingDirectory = t.workingDirectory
  directories : ∀ l, t.node? l = some .directory → t'.node? l = some .directory
  elsewhere : ∀ l, l ≠ location → t'.node? l = t.node? l

namespace ChangesOnly

variable {location : Location} {t t' t'' : FileTree}

theorem refl (location : Location) (t : FileTree) : ChangesOnly location t t :=
  ⟨rfl, fun _ h => h, fun _ _ => rfl⟩

theorem trans (first : ChangesOnly location t t') (second : ChangesOnly location t' t'') :
    ChangesOnly location t t'' where
  workingDirectory := second.workingDirectory.trans first.workingDirectory
  directories l h := second.directories l (first.directories l h)
  elsewhere l h := (second.elsewhere l h).trans (first.elsewhere l h)

/-- Putting a node in the place of a file, or where nothing was. -/
theorem put (h : t.node? location ≠ some .directory) (node : Node) :
    ChangesOnly location t (t.put location node) := by
  have below := ne_nil_of_node? h
  refine ⟨rfl, ?_, ?_⟩
  · intro l directory
    have other : l ≠ location := by
      rintro rfl
      exact h directory
    rw [node?_put t below, if_neg other, directory]
  · intro l other
    rw [node?_put t below, if_neg other]

/-- Steps that could be followed lead to the same directory. -/
theorem descend (h : ChangesOnly location t t') {steps : List PathStep}
    {start directory : Location} (reached : t.descend steps start = .ok directory) :
    t'.descend steps start = .ok directory := by
  -- Only a step into an entry looks at the tree, and it goes on only if that entry is a directory.
  induction steps generalizing start with
  | nil => exact reached
  | cons step rest ih =>
    cases step with
    | here => exact ih reached
    | up => exact ih reached
    | entry name =>
      unfold FileTree.descend at reached ⊢
      by_cases long : nameLimit < name.utf8ByteSize
      · rw [if_pos long] at reached
        cases reached
      · rw [if_neg long] at reached ⊢
        split at reached
        · cases reached
        · cases reached
        · next stands =>
          rw [h.directories _ stands]
          exact ih reached

/-- A path leads to where it led before. -/
theorem locate (h : ChangesOnly location t t') {p : Path} {l : Location}
    (located : t.locate p = .ok l) : t'.locate p = .ok l := by
  have origin : t'.origin p = t.origin p := by rw [FileTree.origin, h.workingDirectory]; rfl
  unfold FileTree.locate enclosing at located ⊢
  rw [origin]
  -- The path is not refused, and the steps to the enclosing directory can be followed.
  cases refused : p.refusal with
  | some fault =>
    rw [refused] at located
    cases located
  | none =>
    rw [refused] at located
    cases reached : t.descend p.steps.dropLast (t.origin p) with
    | error fault =>
      simp only [reached] at located
      cases located
    | ok directory =>
      simp only [reached] at located
      simp only [h.descend reached]
      split at located
      · exact located
      · exact located
      · exact h.descend located

/-- A file at another location reads as before. -/
theorem read (h : ChangesOnly location t t') {p : Path} {bytes : Bytes}
    (found : t.read p = .ok (.file bytes)) (apart : t.locate p ≠ .ok location) :
    t'.read p = .ok (.file bytes) := by
  unfold FileTree.read at found ⊢
  cases located : t.locate p with
  | error fault =>
    rw [located] at found
    cases found
  | ok l =>
    have other : l ≠ location := by
      rintro rfl
      exact apart located
    rw [located] at found
    rw [h.locate located]
    simp only [h.elsewhere l other]
    exact found

end ChangesOnly

/-- A path at which something can be read leads somewhere. -/
theorem locate_of_read {t : FileTree} {p : Path} {node : Node} (found : t.read p = .ok node) :
    ∃ l, t.locate p = .ok l := by
  unfold FileTree.read at found
  cases located : t.locate p with
  | error fault =>
    rw [located] at found
    cases found
  | ok l => exact ⟨l, rfl⟩

/-- Reading a file that a path leads to. -/
theorem read_eq_file {t : FileTree} {p : Path} {location : Location} {bytes : Bytes}
    (located : t.locate p = .ok location) (stands : t.node? location = some (.file bytes))
    (plain : p.endsInSlash = false) : t.read p = .ok (.file bytes) := by
  unfold FileTree.read
  rw [located]
  simp only [stands, plain, Bool.false_eq_true, if_false]

/-! ## Making and writing -/

/-- A file that has been made is empty, and its path leads to it. -/
theorem of_create {t t' : FileTree} {p : Path} {location : Location}
    (made : t.create p = .ok (location, t')) :
    t.locate p = .ok location ∧ p.endsInSlash = false ∧ ChangesOnly location t t' ∧
      t'.node? location = some (.file []) := by
  unfold create at made
  split at made
  · cases made
  · split at made
    · cases made
    · next plain =>
      split at made
      · cases made
      · next l located =>
        split at made
        · cases made
        · next free =>
          cases made
          -- A directory would have been in the way.
          have notDirectory : t.node? location ≠ some .directory := by
            intro directory
            exact free directory
          refine ⟨located, by simpa using plain, .put notDirectory _, ?_⟩
          rw [node?_put t (ne_nil_of_node? notDirectory), if_pos rfl]

/-- Bytes that are written at the end of a file join it. -/
theorem node?_writeAt {t : FileTree} {location : Location} {content : Bytes}
    (stands : t.node? location = some (.file content)) (bytes : Bytes) :
    (t.writeAt location content.length bytes).node? location =
      some (.file (content ++ bytes)) := by
  have notDirectory : t.node? location ≠ some .directory := by
    rw [stands]
    intro h
    cases h
  unfold writeAt
  rw [stands]
  cases bytes with
  | nil =>
    rw [List.append_nil]
    exact stands
  | cons first rest =>
    show (t.put location _).node? location = _
    rw [node?_put t (ne_nil_of_node? notDirectory), if_pos rfl, patch, List.take_length,
      Nat.sub_self, List.replicate_zero, List.append_nil, List.drop_eq_nil_of_le (by omega),
      List.append_nil]

theorem writeAt_nil (t : FileTree) (location : Location) (offset : Nat) :
    t.writeAt location offset [] = t := by
  unfold writeAt
  split
  · rfl
  · rfl

theorem changesOnly_writeAt (t : FileTree) (location : Location) (offset : Nat) (bytes : Bytes) :
    ChangesOnly location t (t.writeAt location offset bytes) := by
  unfold writeAt
  split
  · next content stands =>
    split
    · exact .refl location t
    · apply ChangesOnly.put
      rw [stands]
      intro h
      cases h
  · exact .refl location t

end VorbisTrack.FileTree
