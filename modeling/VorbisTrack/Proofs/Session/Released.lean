import VorbisTrack.Proofs.Session.Calls

/-!
# The packets that the library has released

A packet is released by a request for one that answers 1. `Session.released` lists the packets that
the log of a session tells of. Draining hands exactly the packets released meanwhile to its sink,
each once and in order, however it ends (`drain_released`). What only sets up or puts samples in
releases none.
-/

set_option autoImplicit false

namespace VorbisTrack

variable {σ τ : Type} {lib : Library σ}

def Event.released? : Event → Option RawPacket
  | ⟨.flushPacket, code, packet⟩ => if code = 1 then some packet else none
  | _ => none

/-- A call that does not get packets out releases none. -/
theorem Event.released?_eq_none {event : Event} (other : event.call.purpose ≠ .output) :
    event.released? = none := by
  obtain ⟨call, answer⟩ := event
  cases call with
  | flushPacket => exact absurd rfl other
  | _ => rfl

def Sink.putAll (sink : Sink τ) (packets : List RawPacket) (t : τ) : τ :=
  packets.foldl (fun t packet => sink.put packet t) t

theorem Sink.putAll_append (sink : Sink τ) (packets further : List RawPacket) (t : τ) :
    sink.putAll (packets ++ further) t = sink.putAll further (sink.putAll packets t) :=
  List.foldl_append

namespace Session

def released (s : Session lib) : List RawPacket :=
  s.trace.filterMap Event.released?

theorem released_perform (s : Session lib) (call : Call) :
    (s.perform call).2.released
      = s.released ++ (Event.released? ⟨call, (s.perform call).1⟩).toList :=
  filterMap_trace_perform Event.released? s call

theorem released_perform_of_ne (s : Session lib) {call : Call} (other : call ≠ .flushPacket) :
    (s.perform call).2.released = s.released := by
  have none : Event.released? ⟨call, (s.perform call).1⟩ = Option.none := by
    cases call with
    | flushPacket => exact absurd rfl other
    | _ => rfl
  rw [released_perform, none, Option.toList_none, List.append_nil]

theorem released_flushPacket (s : Session lib) :
    (s.perform .flushPacket).2.released = s.released ++
      if (s.perform .flushPacket).1.1 = (1 : Int32) then [(s.perform .flushPacket).1.2]
      else [] := by
  rw [released_perform]
  congr 1
  simp only [Event.released?]
  split <;> rfl

/-- Setting up and putting samples in releases nothing. -/
theorem Makes.released {purpose : Purpose} {s s' : Session lib} (h : s.Makes purpose s')
    (other : purpose ≠ .output) : s'.released = s.released :=
  h.filterMap_trace fun _ made => Event.released?_eq_none (by rwa [made])

theorem released_signalEnd (s : Session lib) : s.signalEnd.2.released = s.released :=
  signalEnd_keeps (P := fun s' => s'.released = s.released) rfl
    (released_perform_of_ne s (by simp)) fun _ kept => kept

/-! ## Draining -/

/-- `s'` has released some packets more than `s`, and exactly these took the sink from `t`
to `t'`. -/
def HandsOver (sink : Sink τ) (t t' : τ) (s s' : Session lib) : Prop :=
  ∃ packets, s'.released = s.released ++ packets ∧ t' = Sink.putAll sink packets t

theorem HandsOver.nothing (sink : Sink τ) (t : τ) {s s' : Session lib}
    (h : s'.released = s.released) : HandsOver sink t t s s' :=
  ⟨[], by rw [h, List.append_nil], rfl⟩

theorem HandsOver.trans {sink : Sink τ} {t t' t'' : τ} {s s' s'' : Session lib}
    (first : HandsOver sink t t' s s') (second : HandsOver sink t' t'' s' s'') :
    HandsOver sink t t'' s s'' := by
  obtain ⟨packets, earlier, rfl⟩ := first
  obtain ⟨further, later, rfl⟩ := second
  refine ⟨packets ++ further, ?_, ?_⟩
  · rw [later, earlier, List.append_assoc]
  · rw [Sink.putAll_append]

theorem takePackets_released (sink : Sink τ) (wantsMore : Bool) (t : τ) (s : Session lib) :
    HandsOver sink t (takePackets sink wantsMore t s).2.1 s
      (takePackets sink wantsMore t s).2.2 := by
  -- Each request that is answered by 1 releases one packet, and the sink gets that packet. The
  -- request that ends the loop releases none.
  fun_induction takePackets sink wantsMore t s with
  | case1 wantsMore t s reply released taken ih =>
    have one : HandsOver sink t taken s reply.2 := by
      refine ⟨[reply.1.2], ?_, rfl⟩
      rw [released_flushPacket, if_pos released]
    exact one.trans ih
  | case2 wantsMore t s reply none =>
    refine .nothing sink t ?_
    rw [released_flushPacket, if_neg none, List.append_nil]
  | case3 wantsMore t s reply none =>
    refine .nothing sink t ?_
    rw [released_flushPacket, if_neg none, List.append_nil]

theorem analyseBlock_released (sink : Sink τ) (t : τ) (s : Session lib) :
    HandsOver sink t (analyseBlock sink t s).2.1 s (analyseBlock sink t s).2.2 := by
  have analysed : (s.perform .analysis).2.released = s.released :=
    released_perform_of_ne s (by simp)
  have added : ((s.perform .analysis).2.perform .addBlock).2.released = s.released :=
    (released_perform_of_ne _ (by simp)).trans analysed
  simp only [analyseBlock]
  split
  · exact .nothing sink t analysed
  · split
    · exact .nothing sink t added
    · exact (HandsOver.nothing sink t added).trans (takePackets_released ..)

/-- Draining hands over the packets released meanwhile, and these only. -/
theorem drain_released (sink : Sink τ) (t : τ) (s : Session lib) :
    HandsOver sink t (drain sink t s).2.1 s (drain sink t s).2.2 := by
  have asked (t' : τ) (s' : Session lib) : HandsOver sink t' t' s' (s'.perform .blockOut).2 :=
    .nothing sink t' (released_perform_of_ne s' (by simp))
  refine drain_keeps (P := fun t' s' => HandsOver sink t t' s s') sink ?_ ?_
    (.nothing sink t rfl)
  · intro t' s' handed _
    exact (handed.trans (asked t' s')).trans (analyseBlock_released sink t' _)
  · intro t' s' handed _
    exact handed.trans (asked t' s')

end Session

end VorbisTrack
