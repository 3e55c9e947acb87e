import VorbisTrack.Proofs.Session.Released

/-!
# Draining pauses between blocks

A sink is asked whether it wants another block once all packets of a block have been handed to it.
`ComesRound` follows the loop: draining from one state of the sink and the session comes round to
asking for a block in another. Every request for a block in the log belongs to such a moment
(`comesRound_of_log`), and at each of them the sink is as it was at first, or it wants more
(`ComesRound.wantsMore`). What the sink has taken after its last word are the packets of one block,
and `sinceBlock` reads them off the log (`drain_lastBlock`).
-/

set_option autoImplicit false

namespace VorbisTrack

variable {σ τ : Type} {lib : Library σ}

/-! ## The latest block -/

/-- The packets released since the latest block was handed out, by a log that has its latest event
first. -/
def sinceBlock : List Event → List RawPacket
  | [] => []
  | ⟨.blockOut, code⟩ :: log => if code = 1 then [] else sinceBlock log
  | event :: log => sinceBlock log ++ event.released?.toList

/-- Without a request for a block, all packets that are released add to the latest. -/
theorem sinceBlock_append (log : List Event) {events : List Event}
    (none : ∀ event ∈ events, event.call ≠ .blockOut) :
    sinceBlock (events ++ log) = sinceBlock log ++ events.reverse.filterMap Event.released? := by
  induction events with
  | nil => exact (List.append_nil _).symm
  | cons event rest ih =>
    have other := none event (List.mem_cons_self ..)
    have before := ih fun event he => none event (List.mem_cons_of_mem _ he)
    have step : sinceBlock (event :: (rest ++ log)) =
        sinceBlock (rest ++ log) ++ event.released?.toList := by
      obtain ⟨call, answer⟩ := event
      cases call with
      | blockOut => exact absurd rfl other
      | _ => rfl
    rw [List.cons_append, step, before, List.append_assoc, List.reverse_cons,
      List.filterMap_append]
    rfl

namespace Session

/-- From `s` to `s'` no block has been asked for. -/
def AsksForNone (s s' : Session lib) : Prop :=
  ∃ events, s'.log = events ++ s.log ∧ ∀ event ∈ events, event.call ≠ .blockOut

namespace AsksForNone

variable {s s' s'' : Session lib}

theorem refl (s : Session lib) : s.AsksForNone s :=
  ⟨[], rfl, by simp⟩

theorem trans (first : s.AsksForNone s') (second : s'.AsksForNone s'') : s.AsksForNone s'' := by
  obtain ⟨earlier, log, before⟩ := first
  obtain ⟨later, log', after⟩ := second
  refine ⟨later ++ earlier, by rw [log', log, List.append_assoc], ?_⟩
  intro event made
  rcases List.mem_append.mp made with made | made
  · exact after event made
  · exact before event made

/-- Packets that have been released meanwhile belong to the latest block. -/
theorem sinceBlock (h : s.AsksForNone s') {packets : List RawPacket}
    (released : s'.released = s.released ++ packets) :
    sinceBlock s'.log = VorbisTrack.sinceBlock s.log ++ packets := by
  obtain ⟨events, log, none⟩ := h
  have same : s'.released = s.released ++ events.reverse.filterMap Event.released? := by
    rw [Session.released, Session.released, trace, trace, log, List.reverse_append,
      List.filterMap_append]
  rw [log, sinceBlock_append _ none, List.append_cancel_left (same.symm.trans released)]

/-- A request for a block that the log of `s'` holds is one that the log of `s` holds. -/
theorem suffix_of_blockOut (h : s.AsksForNone s') {code : Int32} {older : List Event}
    (made : ⟨.blockOut, code⟩ :: older <:+ s'.log) : ⟨.blockOut, code⟩ :: older <:+ s.log := by
  obtain ⟨events, log, none⟩ := h
  rw [log] at made
  clear log
  induction events with
  | nil => exact made
  | cons event rest ih =>
    rcases List.suffix_cons_iff.mp made with same | made
    · cases same
      exact absurd rfl (none _ (List.mem_cons_self ..))
    · exact ih made fun event he => none event (List.mem_cons_of_mem _ he)

/-- If one block has been asked for, this is where the log says so. -/
theorem eq_of_blockOut (h : (s.perform .blockOut).2.AsksForNone s') {code : Int32}
    {older : List Event} (made : ⟨.blockOut, code⟩ :: older <:+ s'.log)
    (new : ¬ ⟨.blockOut, code⟩ :: older <:+ s.log) : s.log = older := by
  rcases List.suffix_cons_iff.mp (h.suffix_of_blockOut made) with same | old
  · exact (List.tail_eq_of_cons_eq same).symm
  · exact absurd old new

end AsksForNone

theorem asksForNone_perform (s : Session lib) (call : Call) (other : call ≠ .blockOut) :
    s.AsksForNone (s.perform call).2 := by
  refine ⟨[⟨call, (s.perform call).1⟩], rfl, ?_⟩
  intro event made
  rwa [List.mem_singleton.mp made]

/-- Blocks are asked for to get packets out. -/
theorem AsksForNone.of_log {purpose : Purpose} {s s' : Session lib}
    (h : ∃ events, s'.log = events ++ s.log ∧ ∀ event ∈ events, event.call.purpose = purpose)
    (other : purpose ≠ .output) : s.AsksForNone s' := by
  obtain ⟨events, log, made⟩ := h
  refine ⟨events, log, ?_⟩
  intro event member block
  apply other
  rw [← made event member, block]
  rfl

theorem Makes.asksForNone {purpose : Purpose} {s s' : Session lib} (h : s.Makes purpose s')
    (other : purpose ≠ .output) : s.AsksForNone s' :=
  .of_log h.log other

/-- Ending the input is putting in. -/
theorem log_signalEnd (s : Session lib) :
    ∃ events, s.signalEnd.2.log = events ++ s.log ∧
      ∀ event ∈ events, event.call.purpose = .input :=
  signalEnd_keeps
    (P := fun s' => ∃ events, s'.log = events ++ s.log ∧
      ∀ event ∈ events, event.call.purpose = .input)
    (Makes.refl .input s).log (makes_perform s (.wrote 0 [])).log fun _ made => made

theorem asksForNone_signalEnd (s : Session lib) : s.AsksForNone s.signalEnd.2 :=
  .of_log (log_signalEnd s) (by decide)

theorem asksForNone_takePackets (sink : Sink τ) (wantsMore : Bool) (t : τ) (s : Session lib) :
    s.AsksForNone (takePackets sink wantsMore t s).2.2 := by
  have asked (s : Session lib) : s.AsksForNone (s.perform .flushPacket).2 :=
    asksForNone_perform s _ (by simp)
  fun_induction takePackets sink wantsMore t s with
  | case1 wantsMore t s _ _ _ ih => exact (asked s).trans ih
  | case2 wantsMore t s => exact asked s
  | case3 wantsMore t s => exact asked s

theorem asksForNone_analyseBlock (sink : Sink τ) (t : τ) (s : Session lib) :
    s.AsksForNone (analyseBlock sink t s).2.2 := by
  have analysed : s.AsksForNone (s.perform .analysis).2 := asksForNone_perform s _ (by simp)
  have added := analysed.trans (asksForNone_perform _ .addBlock (by simp))
  simp only [analyseBlock]
  split
  · exact analysed
  · split
    · exact added
    · exact added.trans (asksForNone_takePackets ..)

/-! ## The sink's last word -/

/-- The answer for the sink is its word on the last packet, or what it was if there was none. -/
theorem takePackets_wantsMore {sink : Sink τ} {wantsMore more : Bool} {t t' : τ}
    {s s' : Session lib} (taken : takePackets sink wantsMore t s = (.ok more, t', s')) :
    (t' = t ∧ more = wantsMore) ∨ more = sink.wantsMore t' := by
  fun_induction takePackets sink wantsMore t s with
  | case1 wantsMore t s _ _ put ih =>
    rcases ih taken with ⟨rfl, rfl⟩ | last
    · exact .inr rfl
    · exact .inr last
  | case2 wantsMore t s => cases taken
  | case3 wantsMore t s =>
    cases taken
    exact .inl ⟨rfl, rfl⟩

/-- After a block the next one is wanted if the sink says so, or if it has taken nothing. -/
theorem analyseBlock_wantsMore {sink : Sink τ} {t t' : τ} {s s' : Session lib}
    (worked : analyseBlock sink t s = (.ok true, t', s')) :
    t' = t ∨ sink.wantsMore t' = true := by
  simp only [analyseBlock] at worked
  split at worked
  · cases worked
  · split at worked
    · cases worked
    · rcases takePackets_wantsMore worked with ⟨same, -⟩ | last
      · exact .inl same
      · exact .inr last.symm

/-! ## The moments at which a block is asked for -/

/-- Draining from `t` and `s` comes round to asking for a block with `t'` and `s'`. -/
inductive ComesRound (sink : Sink τ) : τ → Session lib → τ → Session lib → Prop
  | now (t : τ) (s : Session lib) : ComesRound sink t s t s
  /-- A block has been handed out and worked on, and another one is wanted. -/
  | next {t t' t'' : τ} {s s' s'' : Session lib} (complete : (s.perform .blockOut).1 = (1 : Int32))
      (worked : analyseBlock sink t (s.perform .blockOut).2 = (.ok true, t', s'))
      (later : ComesRound sink t' s' t'' s'') : ComesRound sink t s t'' s''

namespace ComesRound

variable {sink : Sink τ} {t t' : τ} {s s' : Session lib}

/-- The rest of a drain is a drain. -/
theorem drain_eq (h : ComesRound sink t s t' s') : drain sink t s = drain sink t' s' := by
  induction h with
  | now t s => rfl
  | next complete worked later ih =>
    rw [drain, ← ih]
    simp only [complete, dite_true]
    split
    · next other => rw [worked] at other; cases other
    · next other => rw [worked] at other; cases other
    · next same => rw [worked] at same; cases same; rfl

/-- Until then the sink has taken the packets released meanwhile. -/
theorem handsOver (h : ComesRound sink t s t' s') : HandsOver sink t t' s s' := by
  induction h with
  | now t s => exact .nothing sink t rfl
  | @next t t' t'' s s' s'' _ worked later ih =>
    have asked : HandsOver sink t t s (s.perform .blockOut).2 :=
      .nothing sink t (released_perform_of_ne s (by simp))
    have block := analyseBlock_released sink t (s.perform .blockOut).2
    rw [worked] at block
    exact (asked.trans block).trans ih

/-- The sink wants the block that is asked for, unless it has taken nothing since the start. -/
theorem wantsMore (h : ComesRound sink t s t' s') : t' = t ∨ sink.wantsMore t' = true := by
  induction h with
  | now t s => exact .inl rfl
  | next complete worked later ih =>
    rcases ih with rfl | more
    · exact analyseBlock_wantsMore worked
    · exact .inr more

end ComesRound

/-- Every request for a block that is made while draining is made as draining comes round to it. -/
theorem comesRound_of_log {sink : Sink τ} {t : τ} {s : Session lib} {code : Int32}
    {older : List Event} (made : ⟨.blockOut, code⟩ :: older <:+ (drain sink t s).2.2.log)
    (new : ¬ ⟨.blockOut, code⟩ :: older <:+ s.log) :
    ∃ t' s', ComesRound sink t s t' s' ∧ s'.log = older := by
  fun_induction drain sink t s with
  | case1 t s reply complete failure t' s' worked =>
    have none := asksForNone_analyseBlock sink t reply.2
    rw [worked] at none
    exact ⟨t, s, .now t s, none.eq_of_blockOut made new⟩
  | case2 t s reply complete t' s' worked =>
    have none := asksForNone_analyseBlock sink t reply.2
    rw [worked] at none
    exact ⟨t, s, .now t s, none.eq_of_blockOut made new⟩
  | case3 t s reply complete t' s' worked ih =>
    have none := asksForNone_analyseBlock sink t reply.2
    rw [worked] at none
    -- The request was made in this round of the loop, or in a later one.
    by_cases earlier : ⟨.blockOut, code⟩ :: older <:+ s'.log
    · exact ⟨t, s, .now t s, none.eq_of_blockOut earlier new⟩
    · obtain ⟨t'', s'', comes, at_⟩ := ih made earlier
      exact ⟨t'', s'', .next complete worked comes, at_⟩
  | case4 t s => exact ⟨t, s, .now t s, (AsksForNone.refl _).eq_of_blockOut made new⟩
  | case5 t s => exact ⟨t, s, .now t s, (AsksForNone.refl _).eq_of_blockOut made new⟩

/-! ## What is taken after the last word -/

/-- After draining, the sink has taken nothing, or it has taken the packets of the latest block
since it was as at first or wanted more. -/
theorem drain_lastBlock (sink : Sink τ) (t : τ) (s : Session lib) :
    ((drain sink t s).2.1 = t ∧ sinceBlock (drain sink t s).2.2.log = sinceBlock s.log) ∨
      ∃ t', (t' = t ∨ sink.wantsMore t' = true) ∧
        (drain sink t s).2.1 = sink.putAll (sinceBlock (drain sink t s).2.2.log) t' := by
  -- A block that is handed out is worked on, and all its packets are handed over.
  have work (t : τ) (s : Session lib) (complete : (s.perform .blockOut).1 = (1 : Int32)) :
      (analyseBlock sink t (s.perform .blockOut).2).2.1 = sink.putAll
        (sinceBlock (analyseBlock sink t (s.perform .blockOut).2).2.2.log) t := by
    obtain ⟨packets, released, put⟩ := analyseBlock_released sink t (s.perform .blockOut).2
    have since := (asksForNone_analyseBlock sink t (s.perform .blockOut).2).sinceBlock released
    rw [since, put, log_perform, sinceBlock, if_pos complete, List.nil_append]
  fun_induction drain sink t s with
  | case1 t s reply complete failure t' s' worked =>
    have handed := work t s complete
    rw [worked] at handed
    exact .inr ⟨t, .inl rfl, handed⟩
  | case2 t s reply complete t' s' worked =>
    have handed := work t s complete
    rw [worked] at handed
    exact .inr ⟨t, .inl rfl, handed⟩
  | case3 t s reply complete t' s' worked ih =>
    have handed := work t s complete
    rw [worked] at handed
    rcases ih with ⟨same, since⟩ | ⟨t'', more, put⟩
    · refine .inr ⟨t, .inl rfl, ?_⟩
      rw [same, since]
      exact handed
    · refine .inr ⟨t'', ?_, put⟩
      rcases more with rfl | more
      · exact analyseBlock_wantsMore worked
      · exact .inr more
  | case4 t s reply none => exact .inl ⟨rfl, by rw [log_perform, sinceBlock, if_neg none]⟩
  | case5 t s reply none => exact .inl ⟨rfl, by rw [log_perform, sinceBlock, if_neg none]⟩

end Session

end VorbisTrack
