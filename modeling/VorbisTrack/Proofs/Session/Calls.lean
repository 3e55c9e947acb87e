import VorbisTrack.Session

/-!
# What every operation of a session has in common

A session changes its library's state only by calls, and it logs each of them. So whatever
operation leads from `s` to `s'`, the log of `s'` continues that of `s` (`Session.LeadsTo`). Most
operations make calls of one purpose only: they set up, they put samples in, or they get packets
out. `Session.Makes` says so of the step from `s` to `s'`. It is reflexive and transitive and
holds of a single call; each operation then is a walk through its calls. What calls of a purpose
cannot do, an operation that makes no others cannot do either.
-/

set_option autoImplicit false

namespace VorbisTrack

inductive Purpose
  /-- Setting up, making headers and giving back. -/
  | setup
  /-- Putting samples in and ending the input. -/
  | input
  /-- Getting packets out. -/
  | output
  deriving DecidableEq

def Call.purpose : Call → Purpose
  | .buffer _ | .wrote .. => .input
  | .blockOut | .analysis | .addBlock | .flushPacket => .output
  | _ => .setup

variable {σ τ : Type} {lib : Library σ}

/-- The library gives this answer in some state. -/
def Event.IsAnswerOf (lib : Library σ) (event : Event) : Prop :=
  ∃ state, event.answer = (lib.answer event.call state).1

namespace Session

@[simp] theorem log_perform (s : Session lib) (call : Call) :
    (s.perform call).2.log = ⟨call, (s.perform call).1⟩ :: s.log := rfl

def IsAnswered (s : Session lib) : Prop :=
  ∀ event ∈ s.log, event.IsAnswerOf lib

/-- The session `s'` comes from `s` by calls. Nothing is said of how far it has come in acquiring
the library's parts, nor of whether its input has ended. -/
structure LeadsTo (s s' : Session lib) : Prop where
  channels : s'.channels = s.channels
  log : s.log <:+ s'.log
  answered : s.IsAnswered → s'.IsAnswered

namespace LeadsTo

theorem refl (s : Session lib) : s.LeadsTo s :=
  ⟨rfl, List.suffix_refl _, id⟩

theorem trans {s s' s'' : Session lib} (first : s.LeadsTo s') (second : s'.LeadsTo s'') :
    s.LeadsTo s'' where
  channels := second.channels.trans first.channels
  log := first.log.trans second.log
  answered h := second.answered (first.answered h)

end LeadsTo

/-- The session `s'` comes from `s` by calls of a purpose, and its input has ended if that of `s`
had. -/
structure Makes (purpose : Purpose) (s s' : Session lib) : Prop where
  channels : s'.channels = s.channels
  ended : s'.ended = s.ended
  log : ∃ events, s'.log = events ++ s.log ∧ ∀ event ∈ events, event.call.purpose = purpose
  answered : s.IsAnswered → s'.IsAnswered

namespace Makes

variable {purpose : Purpose} {s s' s'' : Session lib}

theorem refl (purpose : Purpose) (s : Session lib) : s.Makes purpose s :=
  ⟨rfl, rfl, ⟨[], rfl, fun _ none => absurd none (by simp)⟩, id⟩

theorem trans (first : s.Makes purpose s') (second : s'.Makes purpose s'') :
    s.Makes purpose s'' := by
  obtain ⟨earlier, log, before⟩ := first.log
  obtain ⟨later, log', after⟩ := second.log
  refine ⟨second.channels.trans first.channels, second.ended.trans first.ended,
    ⟨later ++ earlier, ?_, ?_⟩, fun h => second.answered (first.answered h)⟩
  · rw [log', log, List.append_assoc]
  · intro event made
    rcases List.mem_append.mp made with made | made
    · exact after event made
    · exact before event made

theorem leadsTo (h : s.Makes purpose s') : s.LeadsTo s' := by
  obtain ⟨events, log, -⟩ := h.log
  exact ⟨h.channels, ⟨events, log.symm⟩, h.answered⟩

/-- To note what has been acquired is no call. -/
theorem noting (h : s.Makes purpose s') (info analysis block : Bool) :
    s.Makes purpose { s' with hasInfo := info, hasAnalysis := analysis, hasBlock := block } :=
  ⟨h.channels, h.ended, h.log, h.answered⟩

end Makes

theorem makes_perform (s : Session lib) (call : Call) :
    s.Makes call.purpose (s.perform call).2 := by
  refine ⟨rfl, rfl, ⟨[⟨call, (s.perform call).1⟩], rfl, ?_⟩, ?_⟩
  · intro event made
    rw [List.mem_singleton.mp made]
  · intro answered event made
    rcases List.mem_cons.mp made with rfl | made
    · exact ⟨s.native, rfl⟩
    · exact answered event made

theorem makes_performsIf (s : Session lib) (reason : Bool) (call : Call) :
    s.Makes call.purpose (s.performsIf reason call) := by
  cases reason with
  | true => exact makes_perform s call
  | false => exact .refl call.purpose s

/-! What a function reads from the calls so far grows with each of them. -/

theorem trace_perform (s : Session lib) (call : Call) :
    (s.perform call).2.trace = s.trace ++ [⟨call, (s.perform call).1⟩] := by
  rw [trace, trace, log_perform, List.reverse_cons]

theorem filterMap_trace_perform {α : Type} (f : Event → Option α) (s : Session lib) (call : Call) :
    (s.perform call).2.trace.filterMap f =
      s.trace.filterMap f ++ (f ⟨call, (s.perform call).1⟩).toList := by
  rw [trace_perform, List.filterMap_append]
  cases h : f ⟨call, (s.perform call).1⟩ <;> simp [h]

theorem Makes.filterMap_trace {α : Type} {f : Event → Option α} {purpose : Purpose}
    {s s' : Session lib} (h : s.Makes purpose s')
    (none : ∀ event : Event, event.call.purpose = purpose → f event = Option.none) :
    s'.trace.filterMap f = s.trace.filterMap f := by
  obtain ⟨events, log, made⟩ := h.log
  have nothing : events.reverse.filterMap f = [] := by
    rw [List.filterMap_eq_nil_iff]
    intro event member
    exact none event (made event (List.mem_reverse.mp member))
  rw [trace, trace, log, List.reverse_append, List.filterMap_append, nothing, List.append_nil]

/-! ## Setting up -/

theorem makes_acquireInfo (s : Session lib) : s.Makes .setup s.acquireInfo :=
  (makes_perform s .infoInit).noting true _ _

theorem makes_configure (steps : List SetupStep) (s : Session lib) :
    s.Makes .setup (configure steps s).2 := by
  induction steps generalizing s with
  | nil => exact .refl .setup s
  | cons step rest ih =>
    have first := makes_perform s (.setup step)
    simp only [configure]
    split
    · exact first.trans (ih _)
    · exact first

theorem makes_startAnalysis (s : Session lib) : s.Makes .setup s.startAnalysis.2 := by
  have first := makes_perform s .analysisInit
  simp only [startAnalysis]
  split
  · exact first
  · have both := (first.noting s.hasInfo true s.hasBlock).trans (makes_perform _ .blockInit)
    split
    · exact both
    · exact both.noting _ _ true

abbrev unused (lib : Library σ) (options : EncodingOptions) : Session lib :=
  { native := lib.start, channels := options.channels }

/-- Opening a session sets it up. If that cannot be brought to an end, what was acquired is given
back. -/
theorem open_cases (lib : Library σ) (options : EncodingOptions) :
    ∃ s, (unused lib options).Makes .setup s ∧
      (Session.open lib options = (.ok (), s) ∨
        ∃ failure, Session.open lib options = (.error failure, s.release)) := by
  have first := makes_acquireInfo (unused lib options)
  have second := makes_configure (setupSteps options) (unused lib options).acquireInfo
  cases configured : configure (setupSteps options) (unused lib options).acquireInfo with
  | mk result ready =>
    rw [configured] at second
    cases result with
    | error failure =>
      refine ⟨ready, first.trans second, .inr ⟨failure, ?_⟩⟩
      simp only [«open», configured]
    | ok =>
      have third := makes_startAnalysis ready
      cases started : ready.startAnalysis with
      | mk result s =>
        rw [started] at third
        refine ⟨s, (first.trans second).trans third, ?_⟩
        cases result with
        | error failure =>
          exact .inr ⟨failure, by simp only [«open», configured, started]⟩
        | ok => exact .inl (by simp only [«open», configured, started])

/-- Opening a session only sets up. -/
theorem makes_open {options : EncodingOptions} {s : Session lib}
    (opened : Session.open lib options = (.ok (), s)) : (unused lib options).Makes .setup s := by
  obtain ⟨s', made, same | ⟨failure, other⟩⟩ := open_cases lib options
  · rw [opened] at same
    cases same
    exact made
  · rw [opened] at other
    cases other

theorem makes_addComments (comments : List (String × String)) (s : Session lib) :
    s.Makes .setup (addComments comments s) := by
  induction comments generalizing s with
  | nil => exact .refl .setup s
  | cons comment rest ih => exact (makes_perform s (.commentAdd ..)).trans (ih _)

theorem makes_headerPackets (s : Session lib) (comments : List (String × String)) :
    s.Makes .setup (s.headerPackets comments).2 := by
  have tagged := (makes_perform s .commentInit).trans (makes_addComments comments _)
  have cleared := (tagged.trans (makes_perform _ .headerOut)).trans
    (makes_perform _ .commentClear)
  simp only [headerPackets]
  -- A tag that the library cannot be handed is refused before the first call. After that, the
  -- comments are cleared on both ways out.
  split
  · exact .refl .setup s
  · split
    · exact cleared
    · exact cleared

/-! ## Input -/

/-- The planes that a write tells the library of, if it found this in the memory. -/
def writtenPlanes (s : Session lib) (count : Nat) (fill : Nat → List Sample)
    (memory : Nat → Nat → Sample) : List (List Sample) :=
  if count = 0 then []
  else (List.range s.channels.toNat).map fun c => overwrite count (fill c) (memory c)

/-- Samples that fill the memory leave nothing of what was there. -/
theorem overwrite_of_length_eq {count : Nat} {samples : List Sample} (full : samples.length = count)
    (memory : Nat → Sample) : overwrite count samples memory = samples := by
  rw [overwrite, full, Nat.sub_self, List.range_zero, List.map_nil, List.append_nil,
    List.take_of_length_le (Nat.le_of_eq full)]

/-- Samples that fill the memory for every channel are all that the library is told of. -/
theorem writtenPlanes_of_full {s : Session lib} {count : Nat} (some_ : count ≠ 0)
    {fill : Nat → List Sample} (full : ∀ c < s.channels.toNat, (fill c).length = count)
    (memory : Nat → Nat → Sample) :
    s.writtenPlanes count fill memory = (List.range s.channels.toNat).map fill := by
  rw [writtenPlanes, if_neg some_]
  apply List.map_congr_left
  intro c inRange
  exact overwrite_of_length_eq (full c (List.mem_range.mp inRange)) (memory c)

/-- What a write does: it is refused without a call, it gets no memory, or it fills the memory and
tells the library so. -/
theorem write_cases (s : Session lib) (count : Nat) (fill : Nat → List Sample) :
    (∃ failure, s.write count fill = (.error failure, s) ∧
      (s.ended = true ∧ failure = .samplesAfterEnd ∨
        maxCount < count ∧ failure = .tooManySamples count)) ∨
    (s.ended = false ∧ (s.perform (.buffer count)).1 = none ∧
      s.write count fill = (.error .noAnalysisBuffer, (s.perform (.buffer count)).2)) ∨
    (s.ended = false ∧ ∃ memory told, (s.perform (.buffer count)).1 = some memory ∧
      told = (s.perform (.buffer count)).2.perform
        (.wrote count (s.writtenPlanes count fill memory)) ∧
      s.write count fill = (if told.1 < 0 then .error (.library Routine.analysisWrote.name told.1)
        else .ok (), told.2)) := by
  cases ended : s.ended with
  | true => exact .inl ⟨.samplesAfterEnd, by simp [write, ended], .inl ⟨rfl, rfl⟩⟩
  | false =>
    by_cases many : maxCount < count
    · exact .inl ⟨.tooManySamples count, by simp [write, ended, many], .inr ⟨many, rfl⟩⟩
    · cases asked : (s.perform (.buffer count)).1 with
      | none =>
        -- The code takes the answer and the session apart at once.
        refine .inr (.inl ⟨rfl, rfl, ?_⟩)
        have pair : s.perform (.buffer count) = (none, (s.perform (.buffer count)).2) := by
          rw [← asked]
        simp only [write, ended, many, if_false, Bool.false_eq_true]
        rw [pair]
      | some memory =>
        refine .inr (.inr ⟨rfl, memory, _, rfl, rfl, ?_⟩)
        have pair : s.perform (.buffer count) = (some memory, (s.perform (.buffer count)).2) := by
          rw [← asked]
        simp only [write, ended, many, if_false, Bool.false_eq_true]
        rw [pair]
        exact (apply_ite (fun result => (result, _)) _ _ _).symm

/-- What a write does depends on nothing but the samples of the channels there are. -/
theorem write_congr {s : Session lib} {count : Nat} {fill other : Nat → List Sample}
    (same : ∀ c < s.channels.toNat, fill c = other c) :
    s.write count fill = s.write count other := by
  have planes (memory : Nat → Nat → Sample) :
      ((List.range s.channels.toNat).map fun c => overwrite count (fill c) (memory c)) =
        (List.range s.channels.toNat).map fun c => overwrite count (other c) (memory c) := by
    apply List.map_congr_left
    intro c inRange
    rw [same c (List.mem_range.mp inRange)]
  have channels : (s.perform (.buffer count)).2.channels = s.channels := rfl
  unfold write
  split
  · rfl
  · split
    · rfl
    · split
      · rfl
      · next memory s' asked =>
        rw [asked] at channels
        simp only at channels
        rw [channels]
        rw [planes memory]

theorem makes_write (s : Session lib) (count : Nat) (fill : Nat → List Sample) :
    s.Makes .input (s.write count fill).2 := by
  have asked := makes_perform s (.buffer count)
  rcases write_cases s count fill with
    ⟨_, refused, -⟩ | ⟨-, -, unfilled⟩ | ⟨-, _, _, -, rfl, filled⟩
  · rw [refused]
    exact .refl .input s
  · rw [unfilled]
    exact asked
  · rw [filled]
    exact asked.trans (makes_perform _ (.wrote count _))

theorem signalEnd_of_ended {s : Session lib} (ended : s.ended = true) :
    s.signalEnd = (.ok (), s) := by
  rw [signalEnd, if_pos ended]

/-- Ending the input does nothing if it has ended, and else it is a call that the session notes if
the library accepts it. -/
theorem signalEnd_cases (s : Session lib) :
    (s.ended = true ∧ s.signalEnd = (.ok (), s)) ∨
    (s.ended = false ∧ (s.perform (.wrote 0 [])).1 < (0 : Int32) ∧
      s.signalEnd =
        (.error (.library Routine.analysisWrote.name (s.perform (.wrote 0 [])).1),
          (s.perform (.wrote 0 [])).2)) ∨
    (s.ended = false ∧ (0 : Int32) ≤ (s.perform (.wrote 0 [])).1 ∧
      s.signalEnd = (.ok (), { (s.perform (.wrote 0 [])).2 with ended := true })) := by
  cases ended : s.ended with
  | true => exact .inl ⟨rfl, signalEnd_of_ended ended⟩
  | false =>
    right
    by_cases failed : (s.perform (.wrote 0 [])).1 < (0 : Int32)
    · refine .inl ⟨rfl, failed, ?_⟩
      rw [signalEnd, if_neg (by simp [ended])]
      exact if_pos failed
    · refine .inr ⟨rfl, Int32.not_lt.mp failed, ?_⟩
      rw [signalEnd, if_neg (by simp [ended])]
      exact if_neg failed

/-- Whether the input has ended is noted as the library has answered. -/
theorem ended_of_signalEnd {s s' : Session lib} (told : s.signalEnd = (.ok (), s')) :
    s'.ended = true := by
  rcases signalEnd_cases s with ⟨ended, same⟩ | ⟨-, -, failed⟩ | ⟨-, -, accepted⟩
  · rw [same] at told
    cases told
    exact ended
  · rw [failed] at told
    cases told
  · rw [accepted] at told
    cases told
    rfl

theorem ended_of_signalEnd_error {s s' : Session lib} {failure : Failure}
    (told : s.signalEnd = (.error failure, s')) : s'.ended = s.ended := by
  rcases signalEnd_cases s with ⟨-, same⟩ | ⟨-, -, failed⟩ | ⟨-, -, accepted⟩
  · rw [same] at told
    cases told
  · rw [failed] at told
    cases told
    rfl
  · rw [accepted] at told
    cases told

/-- What holds of a session, also after it has told the library of the end, holds after ending the
input, if it does not depend on what the session notes of that. -/
theorem signalEnd_keeps {P : Session lib → Prop} {s : Session lib} (h : P s)
    (told : P (s.perform (.wrote 0 [])).2)
    (noted : ∀ s', P s' → P { s' with ended := true }) : P s.signalEnd.2 := by
  rcases signalEnd_cases s with ⟨-, same⟩ | ⟨-, -, failed⟩ | ⟨-, -, accepted⟩
  · rwa [same]
  · rw [failed]
    exact told
  · rw [accepted]
    exact noted _ told

theorem leadsTo_signalEnd (s : Session lib) : s.LeadsTo s.signalEnd.2 :=
  signalEnd_keeps (P := s.LeadsTo) (.refl s) (makes_perform s (.wrote 0 [])).leadsTo
    fun _ led => ⟨led.channels, led.log, led.answered⟩

/-! ## Output -/

theorem makes_takePackets (sink : Sink τ) (wantsMore : Bool) (t : τ) (s : Session lib) :
    s.Makes .output (takePackets sink wantsMore t s).2.2 := by
  -- Only the first case asks for another packet.
  fun_induction takePackets sink wantsMore t s with
  | case1 wantsMore t s _ _ _ ih => exact (makes_perform s .flushPacket).trans ih
  | case2 wantsMore t s => exact makes_perform s .flushPacket
  | case3 wantsMore t s => exact makes_perform s .flushPacket

theorem makes_analyseBlock (sink : Sink τ) (t : τ) (s : Session lib) :
    s.Makes .output (analyseBlock sink t s).2.2 := by
  have analysed := makes_perform s .analysis
  have added := analysed.trans (makes_perform _ .addBlock)
  simp only [analyseBlock]
  split
  · exact analysed
  · split
    · exact added
    · exact added.trans (makes_takePackets ..)

/-- Draining works on one block after the other. What each of them keeps, and what asking for a
block in vain keeps, holds in the end. -/
theorem drain_keeps {P : τ → Session lib → Prop} (sink : Sink τ)
    (work : ∀ t s, P t s → (s.perform .blockOut).1 = (1 : Int32) →
      P (analyseBlock sink t (s.perform .blockOut).2).2.1
        (analyseBlock sink t (s.perform .blockOut).2).2.2)
    (idle : ∀ t s, P t s → (s.perform .blockOut).1 ≠ (1 : Int32) → P t (s.perform .blockOut).2)
    {t : τ} {s : Session lib} (start : P t s) : P (drain sink t s).2.1 (drain sink t s).2.2 := by
  fun_induction drain sink t s with
  | case1 t s reply complete failure t' s' worked =>
    have kept := work t s start complete
    rwa [worked] at kept
  | case2 t s reply complete t' s' worked =>
    have kept := work t s start complete
    rwa [worked] at kept
  | case3 t s reply complete t' s' worked ih =>
    have kept := work t s start complete
    rw [worked] at kept
    exact ih kept
  | case4 t s reply none => exact idle t s start none
  | case5 t s reply none => exact idle t s start none

theorem makes_drain (sink : Sink τ) (t : τ) (s : Session lib) :
    s.Makes .output (drain sink t s).2.2 := by
  refine drain_keeps (P := fun _ s' => s.Makes .output s') sink ?_ ?_ (.refl .output s)
  · intro t s' made _
    exact (made.trans (makes_perform s' .blockOut)).trans (makes_analyseBlock ..)
  · intro t s' made _
    exact made.trans (makes_perform s' .blockOut)

/-! ## Tearing down -/

theorem leadsTo_release (s : Session lib) : s.LeadsTo s.release :=
  (makes_performsIf s _ (.wrote 0 [])).leadsTo.trans
    (((makes_performsIf _ _ .blockClear).trans (makes_performsIf _ _ .dspClear)).trans
      (makes_performsIf _ _ .infoClear)).leadsTo

/-- When the input has ended, giving back is nothing but that. -/
theorem makes_release {s : Session lib} (ended : s.ended = true) : s.Makes .setup s.release := by
  have told : (s.hasAnalysis && !s.ended) = false := by rw [ended, Bool.not_true, Bool.and_false]
  rw [release, told]
  exact ((makes_performsIf s _ .blockClear).trans (makes_performsIf _ _ .dspClear)).trans
    (makes_performsIf _ _ .infoClear)

end Session

end VorbisTrack
