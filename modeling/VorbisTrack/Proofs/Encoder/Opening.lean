import VorbisTrack.Proofs.Encoder.Release
import VorbisTrack.Proofs.Session.Opening
import VorbisTrack.Proofs.Settings

/-!
# Opening an encoder

The calls that open an encoder go by a plan that can be read off its settings: the steps of the
setup that they ask for, the start of the analysis, and the headers with their tags
(`Settings.openingCalls`). Opening is an attempt at that plan, and it fails exactly where the plan
is broken off (`open_setsUp`). Settings that differ in nothing but what is ignored open the same
encoder, or fail in the same way, by the same calls (`open_eq_of_alike`).
-/

set_option autoImplicit false

namespace VorbisTrack

variable {σ : Type} {lib : Library σ}

/-- The calls that open an encoder with these settings, if none of them fails. -/
def Settings.openingCalls (s : Settings) : List Call :=
  Session.openingCalls s.setupSteps ++
    Session.headerCalls (("encoder", Encoder.ident) :: s.comments)

namespace Encoder

structure SetsUp (lib : Library σ) (settings : Settings) : Prop where
  /-- Settings that are turned away lead to no call. -/
  turnedAway : TurnedAway settings → ∃ failure, Encoder.open lib settings = (.error failure, [])
  /-- Others lead to the calls that they ask for, up to the first that fails. That failure is the
  result, and nothing but giving back follows it. -/
  attempts : ¬ TurnedAway settings →
    Attempt settings.openingCalls (failure? (Encoder.open lib settings).1)
      (Encoder.open lib settings).2
  /-- A managed rate is told whole, and so are its limits, which are in order. -/
  rates : ¬ TurnedAway settings → ∀ (channels : UInt16) (rate : UInt32) (max nominal min : Int64),
    .managed channels rate max nominal min ∈ settings.setupSteps →
      settings.TellsRates max nominal min

/-! ## The plan -/

/-- What was attempted from the start is the whole trace. -/
theorem attempt_trace {options : EncodingOptions} {s : Session lib} {plan : List Call}
    {end? : Option Failure} (h : (Session.unused lib options).Attempts s plan end?) :
    Attempt plan end? s.trace := by
  obtain ⟨events, trace, attempt⟩ := h
  rw [trace]
  exact attempt

/-- Opening an encoder is an attempt at the plan of its settings. -/
theorem attempt_open (lib : Library σ) {settings : Settings} {options : EncodingOptions}
    (base : settings.timeBase.isTimeBase = true)
    (resolved : EncodingOptions.resolve settings = .ok options) :
    Attempt settings.openingCalls (failure? (Encoder.open lib settings).1)
      (Encoder.open lib settings).2 := by
  obtain ⟨-, -, comments, checked⟩ := EncodingOptions.of_resolve resolved
  have clean := nulFault?_tags checked
  have plan : settings.openingCalls =
      Session.openingCalls (Session.setupSteps options) ++ Session.headerCalls (tags options) := by
    rw [EncodingOptions.setupSteps_of_resolve resolved, tags, comments, Settings.openingCalls]
  have set := Session.attempts_open lib options
  -- A session that cannot be opened leaves the headers of the plan undone.
  rw [plan]
  simp only [«open», base, not_true, if_false, resolved]
  generalize Session.open lib options = reply at set ⊢
  obtain ⟨result, session⟩ := reply
  cases result with
  | error failure => exact attempt_trace (set.extend _)
  | ok =>
    have made := set.append (Session.attempts_headerPackets clean session)
    simp only
    generalize session.headerPackets (tags options) = reply at made ⊢
    obtain ⟨result, session⟩ := reply
    cases result with
    | error failure => exact attempt_trace (made.giveBack (Session.onlyTeardown_release session))
    | ok headers => exact attempt_trace made

/-- **Opening performs the setup that is asked for.** This holds of all settings, and of whatever
the library answers. -/
theorem open_setsUp (lib : Library σ) (settings : Settings) : SetsUp lib settings where
  turnedAway turned := open_of_turnedAway turned lib
  attempts taken := by
    obtain ⟨base, options, resolved⟩ := exists_resolve_of_not_turnedAway taken
    exact attempt_open lib base resolved
  rates taken := by
    obtain ⟨-, options, resolved⟩ := exists_resolve_of_not_turnedAway taken
    intro channels rate max nominal min told
    exact EncodingOptions.tellsRates_of_resolve resolved told

/-- A managed rate without limits. -/
example : monoSettings.openingCalls =
    [.infoInit, .setup (.managed 1 8000 (-1) 32000 (-1)), .setup .rateManagementOff, .setup .finish,
      .analysisInit, .blockInit, .commentInit, .commentAdd "encoder" ident, .headerOut,
      .commentClear] := by
  rfl

/-! ## Ignored settings -/

/-- An encoder is opened with what is heeded of its settings. -/
theorem open_heeded (lib : Library σ) (s : Settings) :
    Encoder.open lib s.heeded = Encoder.open lib s := by
  unfold «open»
  rw [EncodingOptions.resolve_heeded]
  rfl

/-- **Ignored settings have no influence.** Settings that differ in nothing else are resolved to the
same options, or with the same failure, and they open the same encoder, or fail in the same way, by
the same calls. -/
theorem open_eq_of_alike {s t : Settings} (alike : s.Alike t) (lib : Library σ) :
    EncodingOptions.resolve s = EncodingOptions.resolve t ∧
      Encoder.open lib s = Encoder.open lib t := by
  have same := alike.heeded_eq
  constructor
  · rw [← EncodingOptions.resolve_heeded s, same, EncodingOptions.resolve_heeded t]
  · rw [← open_heeded lib s, same, open_heeded lib t]

def qualitySettings : Settings :=
  { monoSettings with bitRate := 0, quality := some 5 }

/-- The same, with a rate that no word of the library can hold, and limits that are out of order. -/
def excessiveSettings : Settings :=
  { qualitySettings with bitRate := 0x8000000000000000, minRate := some 2, maxRate := some 1 }

/-- The excessive rates do no harm beside the quality. -/
theorem open_eq_of_alike_excessive :
    qualitySettings.Alike excessiveSettings ∧
      (EncodingOptions.resolve qualitySettings = EncodingOptions.resolve excessiveSettings ∧
        Encoder.open headerlessScript.library qualitySettings =
          Encoder.open headerlessScript.library excessiveSettings) ∧
      (EncodingOptions.resolve excessiveSettings).isOk = true :=
  have alike : qualitySettings.Alike excessiveSettings := .quality rfl _ _ _
  ⟨alike, open_eq_of_alike alike headerlessScript.library, rfl⟩

end Encoder

end VorbisTrack
