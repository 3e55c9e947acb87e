import VorbisTrack.Proofs.Matroska.Muxer

/-!
# A muxer keeps to its file

Whatever a muxer is asked to do and whether it succeeds, it changes the file that it has created and
no other entry of the tree. `Muxer.KeepsTo` says so of one call.
-/

set_option autoImplicit false

namespace VorbisTrack.Matroska.Muxer

/-- The file that is open, if there is one, is at a location. -/
def WritesTo (m : Muxer) (location : Location) : Prop :=
  ∀ file, m.output = some file → file.location = location

/-- A call that leads to this muxer and these files has changed the file at a location only, and the
muxer goes on writing there. -/
structure KeepsTo (location : Location) (tree : FileTree) (m' : Muxer) (tree' : FileTree) :
    Prop where
  writesTo : m'.WritesTo location
  files : tree.ChangesOnly location tree'

variable {m m' : Muxer} {location : Location} {tree tree' tree'' : FileTree}

theorem WritesTo.keepsTo (h : m.WritesTo location) (tree : FileTree) :
    KeepsTo location tree m tree :=
  ⟨h, .refl location tree⟩

theorem KeepsTo.trans {m'' : Muxer} (first : KeepsTo location tree m' tree')
    (second : KeepsTo location tree' m'' tree'') : KeepsTo location tree m'' tree'' :=
  ⟨second.writesTo, first.files.trans second.files⟩

/-- A muxer whose file is the one that has been written to keeps to it. -/
theorem keepsTo_of_appends {bytes : Bytes} {file : OutputFile} {after : OutputFile × FileTree}
    (at_ : file.location = location) (step : OutputFile.Appends bytes (file, tree) after)
    (output : m'.output = some after.1) : KeepsTo location tree m' after.2 := by
  subst at_
  refine ⟨?_, step.tree⟩
  intro file' same
  cases output.symm.trans same
  exact step.location

theorem writesTo_of_none (closed : m.output = none) (location : Location) :
    m.WritesTo location := by
  intro file output
  rw [closed] at output
  cases output

/-! ## Calls -/

/-- Letting go of the file writes what was held back for it. -/
theorem WritesTo.release (h : m.WritesTo location) (tree : FileTree) :
    tree.ChangesOnly location (m.release tree) := by
  unfold Muxer.release
  split
  · next file output =>
    rw [← h file output]
    exact file.changesOnly_flush tree
  · exact .refl location tree

theorem WritesTo.addStream (h : m.WritesTo location) (stream : Stream) :
    (m.addStream stream).2.WritesTo location := by
  unfold Muxer.addStream
  split
  · exact h
  · split
    · exact h
    · split
      · exact h
      · exact h

theorem WritesTo.writeHeader (h : m.WritesTo location) (tree : FileTree) :
    KeepsTo location tree (m.writeHeader tree).2.1 (m.writeHeader tree).2.2 := by
  unfold Muxer.writeHeader
  split
  · exact h.keepsTo tree
  · split
    · exact h.keepsTo tree
    · split
      · exact h.keepsTo tree
      · exact h.keepsTo tree
      · next tracks file _ output =>
        -- Five steps, each of which appends to the file.
        have one := file.appends_write (encodeDocument m.docType) tree
        generalize file.write (encodeDocument m.docType) tree = s₁ at one ⊢
        have two := one.trans (s₁.1.appends_write segmentStart s₁.2)
        generalize second : s₁.1.write segmentStart s₁.2 = s₂ at two
        have three := two.trans (s₂.1.appends_flush s₂.2)
        generalize third : s₂.1.flush s₂.2 = s₃ at three
        have four := three.trans (s₃.1.appends_write (encodeInfo Encoder.ident) s₃.2)
        generalize fourth : s₃.1.write (encodeInfo Encoder.ident) s₃.2 = s₄ at four
        have five := four.trans (s₄.1.appends_write tracks s₄.2)
        generalize fifth : s₄.1.write tracks s₄.2 = s₅ at five
        simp only [second, third, fourth, fifth]
        exact keepsTo_of_appends (h file output) five rfl

theorem WritesTo.flushCluster (h : m.WritesTo location) (tree : FileTree) :
    KeepsTo location tree (m.flushCluster tree).2.1 (m.flushCluster tree).2.2 := by
  rcases m.flushCluster_cases tree with
    ⟨-, flushed⟩ | ⟨-, closed, flushed⟩ | ⟨file, after, -, output, step, flushed⟩
  all_goals rw [flushed]
  · exact h.keepsTo tree
  · exact ⟨writesTo_of_none closed location, .refl location tree⟩
  · exact keepsTo_of_appends (h file output) step rfl

theorem WritesTo.writePacket (h : m.WritesTo location) (packet : Packet) (tree : FileTree) :
    KeepsTo location tree (m.writePacket packet tree).2.1 (m.writePacket packet tree).2.2 := by
  have closing := h.flushCluster tree
  rcases m.writePacket_cases packet tree with
    ⟨_, -, refused⟩ | ⟨_, _, _, flushed, refused⟩ | ⟨_, _, _, -, before, taken⟩
  · rw [refused]
    exact h.keepsTo tree
  · rw [refused]
    rwa [flushed] at closing
  · rw [taken]
    rcases before with ⟨-, rfl, rfl⟩ | ⟨-, flushed⟩
    · exact ⟨h, .refl location _⟩
    · rw [flushed] at closing
      exact ⟨closing.writesTo, closing.files⟩

theorem WritesTo.writeTrailer (h : m.WritesTo location) (tree : FileTree) :
    KeepsTo location tree (m.writeTrailer tree).2.1 (m.writeTrailer tree).2.2 := by
  have closing := h.flushCluster tree
  rcases m.writeTrailer_cases tree with
    ⟨_, _, _, flushed, written⟩ | ⟨_, _, flushed, -, written⟩ |
      ⟨m', tree', file, after, flushed, output, step, written⟩
  all_goals
    rw [written]
    rw [flushed] at closing
  · exact closing
  · exact ⟨closing.writesTo, closing.files⟩
  · refine ⟨writesTo_of_none rfl location, closing.files.trans ?_⟩
    rw [← closing.writesTo file output]
    exact (step.trans (after.1.appends_flush after.2)).tree

end VorbisTrack.Matroska.Muxer
