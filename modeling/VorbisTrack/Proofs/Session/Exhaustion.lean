import VorbisTrack.Proofs.Session.Released

/-!
# Draining until the library has no block

Draining ends in one of three ways: the library fails, the sink has enough, or there is no further
block. If it succeeds and hands over no packet, it cannot have been the sink that ended it, since a
sink is only asked after a packet. So the library was asked for blocks until it had none, and the
blocks that it handed out before had no packets (`Session.drain_nothing`).
-/

set_option autoImplicit false

namespace VorbisTrack

variable {σ τ : Type} {lib : Library σ}

/-- The failure is that of a call of the running stream, which answered a negative code. -/
def Failure.IsOfLibrary (failure : Failure) : Prop :=
  ∃ (routine : Routine) (code : Int32), code < 0 ∧ failure = .library routine.name code

/-- What the library answers is never taken for an answer of the encoder. -/
theorem Failure.IsOfLibrary.kind_ne {failure : Failure} (h : failure.IsOfLibrary) :
    failure.kind ≠ .tryAgain ∧ failure.kind ≠ .endOfStream := by
  obtain ⟨routine, code, -, rfl⟩ := h
  simp only [Failure.kind]
  split
  · simp
  · split <;> simp

theorem Failure.IsOfLibrary.ne {failure : Failure} (h : failure.IsOfLibrary) :
    ¬ (failure = .tryAgain ∨ failure = .endOfStream) := by
  obtain ⟨again, ending⟩ := h.kind_ne
  rintro (rfl | rfl)
  · exact again rfl
  · exact ending rfl

/-- The calls, the latest first, that work on blocks which turn out to have no packets. Each of them
is handed out, analysed, added, and asked for a packet in vain. -/
inductive EmptyBlocks : List Event → Prop
  | none : EmptyBlocks []
  | block {analysed added asked : Int32} {packet : RawPacket} {calls : List Event}
      (analysis : 0 ≤ analysed) (addBlock : 0 ≤ added) (flushPacket : 0 ≤ asked ∧ asked ≠ 1)
      (earlier : EmptyBlocks calls) :
      EmptyBlocks (⟨.flushPacket, asked, packet⟩ :: ⟨.addBlock, added⟩ :: ⟨.analysis, analysed⟩ ::
        ⟨.blockOut, (1 : Int32)⟩ :: calls)

theorem EmptyBlocks.append {calls earlier : List Event} (h : EmptyBlocks calls)
    (before : EmptyBlocks earlier) : EmptyBlocks (calls ++ earlier) := by
  induction h with
  | none => exact before
  | block analysis addBlock flushPacket _ ih => exact .block analysis addBlock flushPacket ih

namespace Session

/-! ## Failing -/

theorem takePackets_isOfLibrary {sink : Sink τ} {wantsMore : Bool} {t : τ} {s : Session lib}
    {failure : Failure} (failed : (takePackets sink wantsMore t s).1 = .error failure) :
    failure.IsOfLibrary := by
  fun_induction takePackets sink wantsMore t s with
  | case1 wantsMore t s _ _ _ ih => exact ih failed
  | case2 wantsMore t s reply _ negative =>
    cases failed
    exact ⟨_, _, negative, rfl⟩
  | case3 => cases failed

theorem analyseBlock_isOfLibrary {sink : Sink τ} {t : τ} {s : Session lib} {failure : Failure}
    (failed : (analyseBlock sink t s).1 = .error failure) : failure.IsOfLibrary := by
  simp only [analyseBlock] at failed
  split at failed
  · next negative =>
    cases failed
    exact ⟨_, _, negative, rfl⟩
  · split at failed
    · next negative =>
      cases failed
      exact ⟨_, _, negative, rfl⟩
    · exact takePackets_isOfLibrary failed

/-- Draining fails only if the library does. -/
theorem drain_isOfLibrary {sink : Sink τ} {t : τ} {s : Session lib} {failure : Failure}
    (failed : (drain sink t s).1 = .error failure) : failure.IsOfLibrary := by
  fun_induction drain sink t s with
  | case1 t s reply _ cause t' s' worked =>
    cases failed
    exact analyseBlock_isOfLibrary (congrArg Prod.fst worked)
  | case2 => cases failed
  | case3 t s _ _ t' s' _ ih => exact ih failed
  | case4 t s reply _ negative =>
    cases failed
    exact ⟨_, _, negative, rfl⟩
  | case5 => cases failed

/-! ## Succeeding without a packet -/

/-- From `s` to `s'` the library has been asked for blocks until it had none. The blocks before that
had no packets. -/
def FindsNone (s s' : Session lib) : Prop :=
  ∃ (code : Int32) (blocks : List Event),
    s'.log = ⟨.blockOut, code⟩ :: (blocks ++ s.log) ∧ 0 ≤ code ∧ code ≠ 1 ∧ EmptyBlocks blocks

/-- Asking for packets without getting one is asking once. -/
theorem takePackets_nothing {sink : Sink τ} {wantsMore more : Bool} {t t' : τ} {s s' : Session lib}
    (taken : takePackets sink wantsMore t s = (.ok more, t', s'))
    (none : s'.released = s.released) :
    more = wantsMore ∧ t' = t ∧ ∃ (asked : Int32) (packet : RawPacket),
      (0 ≤ asked ∧ asked ≠ 1) ∧ s'.log = ⟨.flushPacket, asked, packet⟩ :: s.log := by
  rw [takePackets] at taken
  simp only at taken
  split at taken
  · next released =>
    -- The packet that was released here has been released in the end as well.
    obtain ⟨packets, later, -⟩ := takePackets_released sink
      (sink.wantsMore (sink.put (s.perform .flushPacket).1.2 t))
      (sink.put (s.perform .flushPacket).1.2 t) (s.perform .flushPacket).2
    rw [taken, none, released_flushPacket, if_pos released, List.append_assoc] at later
    have empty := List.self_eq_append_right.mp later
    cases empty
  · next other =>
    split at taken
    · cases taken
    · next good =>
      cases taken
      exact ⟨rfl, rfl, _, _, ⟨Int32.not_lt.mp good, other⟩, rfl⟩

/-- Working on a block that has no packets leaves the sink as it is, and another block is wanted. -/
theorem analyseBlock_nothing {sink : Sink τ} {more : Bool} {t t' : τ} {s s' : Session lib}
    (worked : analyseBlock sink t s = (.ok more, t', s')) (none : s'.released = s.released) :
    more = true ∧ t' = t ∧ ∃ (analysed added asked : Int32) (packet : RawPacket),
      0 ≤ analysed ∧ 0 ≤ added ∧ (0 ≤ asked ∧ asked ≠ 1) ∧
        s'.log = ⟨.flushPacket, asked, packet⟩ :: ⟨.addBlock, added⟩ :: ⟨.analysis, analysed⟩ ::
          s.log := by
  simp only [analyseBlock] at worked
  split at worked
  · cases worked
  · next analysed =>
    split at worked
    · cases worked
    · next added =>
      have before : ((s.perform .analysis).2.perform .addBlock).2.released = s.released :=
        (released_perform_of_ne _ (by simp)).trans (released_perform_of_ne s (by simp))
      obtain ⟨more', same, asked, packet, good, log⟩ :=
        takePackets_nothing worked (none.trans before.symm)
      exact ⟨more', same, _, _, asked, packet, Int32.not_lt.mp analysed, Int32.not_lt.mp added,
        good, log⟩

/-- Draining that succeeds without a packet has come to the end of the library's blocks. -/
theorem drain_nothing {sink : Sink τ} {t t' : τ} {s s' : Session lib}
    (drained : drain sink t s = (.ok (), t', s')) (none : s'.released = s.released) :
    t' = t ∧ s.FindsNone s' := by
  -- By induction on the blocks that are handed out. What is released for one of them is released
  -- before what is released for those after it, so none of them has a packet.
  fun_induction drain sink t s with
  | case1 => cases drained
  | case2 t s reply complete u s₁ worked =>
    cases drained
    have asked : reply.2.released = s.released := released_perform_of_ne s (by simp)
    obtain ⟨more, -⟩ := analyseBlock_nothing worked (none.trans asked.symm)
    cases more
  | case3 t s reply complete u s₁ worked ih =>
    have asked : reply.2.released = s.released := released_perform_of_ne s (by simp)
    obtain ⟨first, one, -⟩ := analyseBlock_released sink t reply.2
    obtain ⟨rest, others, -⟩ := drain_released sink u s₁
    rw [worked, asked] at one
    rw [drained] at others
    simp only at one others
    rw [others, one, List.append_assoc, List.append_right_eq_self, List.append_eq_nil_iff] at none
    obtain ⟨rfl, rfl⟩ := none
    rw [List.append_nil] at one others
    obtain ⟨-, rfl, analysed, added, flushed, packet, good, good', good'', log⟩ :=
      analyseBlock_nothing worked (one.trans asked.symm)
    obtain ⟨same, code, blocks, log', nonnegative, other, empty⟩ := ih drained others
    have block : EmptyBlocks [⟨.flushPacket, flushed, packet⟩, ⟨.addBlock, added⟩,
        ⟨.analysis, analysed⟩, ⟨.blockOut, (1 : Int32)⟩] := .block good good' good'' .none
    refine ⟨same, code, _, ?_, nonnegative, other, empty.append block⟩
    have handed : reply.2.log = ⟨.blockOut, (1 : Int32)⟩ :: s.log := by
      rw [← complete]
      rfl
    rw [log', log, handed, List.append_assoc]
    rfl
  | case4 => cases drained
  | case5 t s reply other good =>
    cases drained
    exact ⟨rfl, reply.1, [], rfl, Int32.not_lt.mp good, other, .none⟩

/-! ## Draining again -/

/-- If the library has no block, draining asks for one and does nothing else. -/
theorem drain_of_none (sink : Sink τ) (t : τ) {s : Session lib}
    (good : 0 ≤ (s.perform .blockOut).1) (none : (s.perform .blockOut).1 ≠ (1 : Int32)) :
    drain sink t s = (.ok (), t, (s.perform .blockOut).2) := by
  rw [drain]
  simp only [none, dite_false, if_neg (Int32.not_lt.mpr good)]

/-- Draining asks for a block first. -/
theorem blockOut_of_drain (sink : Sink τ) (t : τ) (s : Session lib) :
    (s.perform .blockOut).2.LeadsTo (drain sink t s).2.2 := by
  rw [drain]
  split
  · have worked := (makes_analyseBlock sink t (s.perform .blockOut).2).leadsTo
    split
    · next failed =>
      rw [failed] at worked
      exact worked
    · next enough =>
      rw [enough] at worked
      exact worked
    · next u s₁ more =>
      rw [more] at worked
      exact worked.trans (makes_drain sink u s₁).leadsTo
  · split
    · exact .refl _
    · exact .refl _

/-- Whenever the library was asked for a block between `s` and `s'`, it had none. -/
def HasNone (s s' : Session lib) : Prop :=
  ∀ later, s'.log = later ++ s.log → ∀ code : Int32, ⟨.blockOut, code⟩ ∈ later → 0 ≤ code ∧ code ≠ 1

/-- What holds of the whole time holds of both parts of it. -/
theorem HasNone.split {s s' s'' : Session lib} (h : s.HasNone s'') (first : s.LeadsTo s')
    (second : s'.LeadsTo s'') : s.HasNone s' ∧ s'.HasNone s'' := by
  obtain ⟨earlier, log⟩ := first.log
  obtain ⟨later, log'⟩ := second.log
  have whole : s''.log = later ++ earlier ++ s.log := by
    rw [List.append_assoc, log, log']
  constructor
  · intro events same code member
    rw [← log, List.append_cancel_right_eq] at same
    rw [← same] at member
    exact h _ whole code (List.mem_append_right _ member)
  · intro events same code member
    rw [← log', List.append_cancel_right_eq] at same
    rw [← same] at member
    exact h _ whole code (List.mem_append_left _ member)

/-- As long as the library has no block, draining succeeds and leaves the sink as it is. -/
theorem drain_of_hasNone {sink : Sink τ} {t : τ} {s : Session lib}
    (h : s.HasNone (drain sink t s).2.2) :
    drain sink t s = (.ok (), t, (s.perform .blockOut).2) := by
  obtain ⟨asked, -⟩ := h.split (makes_perform s .blockOut).leadsTo (blockOut_of_drain sink t s)
  obtain ⟨good, none⟩ :=
    asked [⟨.blockOut, (s.perform .blockOut).1⟩] rfl _ (List.mem_singleton_self _)
  exact drain_of_none sink t good none

end Session

end VorbisTrack
