import VorbisTrack.Proofs.EncodingOptions

/-!
# What settings ask for

`Settings.setupSteps` are the steps of the setup that settings ask for, and what the library is told
in them: a quality unless there is a rate to manage, a rate within its limits otherwise, then the
lowpass and the block bias if they are wanted. The options that settings are resolved to lead to
these steps (`setupSteps_of_resolve`), and the rates come through the change of words unharmed
(`tellsRates_of_resolve`).

`Settings.heeded` drops what is ignored: rates beside a quality, limits without a rate, and limits
and frequencies of zero. Settings are resolved as what is heeded of them (`resolve_heeded`).
-/

set_option autoImplicit false

namespace VorbisTrack

namespace Settings

/-- Settings ask for a managed rate if they have a rate and no quality. -/
def isManaged (s : Settings) : Bool :=
  s.quality.isNone && s.bitRate != 0

def isLimit (limit : Option UInt64) : Bool :=
  limit.any fun rate => 0 < rate

/-- What the library is told of a limit: the limit, or -1 for none. -/
def limitWord (limit : Option UInt64) : Int64 :=
  match limit with
  | some rate => if 0 < rate then Int64.ofNat rate.toNat else -1
  | none => -1

/-- The setup of the rate. A managed rate without limits goes with the slow rate management turned
off. -/
def rateSteps (s : Settings) : List SetupStep :=
  if s.isManaged then
    .managed s.channels s.rate (limitWord s.maxRate) (Int64.ofNat s.bitRate.toNat)
        (limitWord s.minRate) ::
      if isLimit s.minRate || isLimit s.maxRate then [] else [.rateManagementOff]
  else [.vbr s.channels s.rate (s.quality.getD 3 / 10)]

/-- The setup of the lowpass, which is told in kilohertz. -/
def lowpassSteps (s : Settings) : List SetupStep :=
  match s.cutoff with
  | some hertz => if 0 < hertz then [.lowpass (hertz.toFloat / 1000)] else []
  | none => []

/-- The number that the value of a private option spells, zero if it spells none. -/
def biasOf (value : String) : Float :=
  (readFloat (trim value.toList)).toOption.getD 0

/-- The impulse block bias, zero if the option is not there. Of several values the last one counts.
-/
def blockBias (s : Settings) : Float :=
  ((s.options.reverse.lookup EncodingOptions.blockBiasName).map biasOf).getD 0

def setupSteps (s : Settings) : List SetupStep :=
  s.rateSteps ++ s.lowpassSteps ++
    (if s.blockBias != 0 then [.blockBias s.blockBias] else []) ++ [.finish]

/-- A word stands for a limit, or for there being none. -/
def IsTold (limit : Option UInt64) (word : Int64) : Prop :=
  (isLimit limit = false ∧ word = -1) ∨
    ∃ rate, limit = some rate ∧ 0 < word ∧ word.toInt = rate.toNat

/-- The words of a managed rate stand for the rate and the limits, which are in order. -/
structure TellsRates (s : Settings) (max nominal min : Int64) : Prop where
  nominal : 0 < nominal ∧ nominal.toInt = s.bitRate.toNat
  lower : IsTold s.minRate min
  upper : IsTold s.maxRate max
  ordered : 0 < min → 0 < max → min ≤ max

/-- The settings without those that are ignored. -/
def heeded (s : Settings) : Settings :=
  { s with
    bitRate := if s.isManaged then s.bitRate else 0
    minRate := if s.isManaged then s.minRate.filter fun rate => 0 < rate else none
    maxRate := if s.isManaged then s.maxRate.filter fun rate => 0 < rate else none
    cutoff := s.cutoff.filter fun hertz => 0 < hertz }

/-- The same, or zero where the other is unset. -/
def SameButZero {α : Type} [OfNat α 0] (setting other : Option α) : Prop :=
  setting = other ∨ (setting = some 0 ∧ other = none) ∨ (setting = none ∧ other = some 0)

/-- Settings that differ in nothing but what is ignored. -/
inductive Alike (s : Settings) : Settings → Prop
  /-- A quality is wanted, and only the rates differ. -/
  | quality (wanted : s.quality.isSome = true) (bitRate : UInt64)
      (minRate maxRate : Option UInt64) : Alike s { s with bitRate, minRate, maxRate }
  /-- Neither a quality nor a rate is wanted, and only the limits differ. -/
  | unmanaged (none : s.quality = none) (zero : s.bitRate = 0)
      (minRate maxRate : Option UInt64) : Alike s { s with minRate, maxRate }
  /-- Only limits and frequencies of zero are set in one and not in the other. -/
  | zeros {minRate maxRate : Option UInt64} {cutoff : Option UInt32}
      (lower : SameButZero s.minRate minRate) (upper : SameButZero s.maxRate maxRate)
      (lowpass : SameButZero s.cutoff cutoff) : Alike s { s with minRate, maxRate, cutoff }

end Settings

namespace EncodingOptions

open Settings

/-! ## Rates -/

theorem signedRate_eq_ok {what : String} {rate : UInt64} {word : Int64}
    (resolved : signedRate what rate = .ok word) :
    word = Int64.ofNat rate.toNat ∧ word.toInt = rate.toNat := by
  unfold signedRate at resolved
  split at resolved
  · next fits =>
    cases resolved
    exact ⟨rfl, Int64.toInt_ofNat_of_lt fits⟩
  · cases resolved

theorem positive_of_toInt {word : Int64} {rate : UInt64} (same : word.toInt = rate.toNat)
    (positive : 0 < rate) : 0 < word := by
  have : (0 : UInt64).toNat < rate.toNat := UInt64.lt_iff_toNat_lt.mp positive
  rw [Int64.lt_iff_toInt_lt, same]
  exact Int.natCast_pos.mpr this

/-- A limit of zero is none, and any other comes through unharmed. -/
theorem limit_cases {what : String} {rate : Option UInt64} {word : Option Int64}
    (resolved : limit what rate = .ok word) :
    word.getD (-1) = limitWord rate ∧ word.isSome = isLimit rate ∧
      IsTold rate (word.getD (-1)) := by
  cases rate with
  | none =>
    cases resolved
    exact ⟨rfl, rfl, .inl ⟨rfl, rfl⟩⟩
  | some rate =>
    simp only [limit] at resolved
    split at resolved
    · next zero =>
      cases resolved
      cases zero
      exact ⟨rfl, rfl, .inl ⟨rfl, rfl⟩⟩
    · next positive =>
      have positive : 0 < rate := UInt64.pos_iff_ne_zero.mpr positive
      cases signed : signedRate what rate with
      | error failure => rw [signed] at resolved; cases resolved
      | ok signed =>
        rw [signed] at resolved
        cases resolved
        obtain ⟨rfl, same⟩ := signedRate_eq_ok ‹_›
        refine ⟨?_, ?_, .inr ⟨rate, rfl, positive_of_toInt same positive, same⟩⟩
        · rw [limitWord, if_pos positive]
          rfl
        · simp [isLimit, positive]

/-- Rates are managed as the settings say, with each word found by itself. -/
theorem resolveRate_of_isManaged {s : Settings} (managed : s.isManaged = true) :
    resolveRate s = do
      let nominal ← signedRate "bitrate" s.bitRate
      let min ← limit "minimum bitrate" s.minRate
      let max ← limit "maximum bitrate" s.maxRate
      return .managed nominal min max := by
  simp only [isManaged, Bool.and_eq_true, Option.isNone_iff_eq_none, bne_iff_ne, ne_eq] at managed
  simp only [resolveRate, managed.1, if_neg managed.2]

theorem resolveRate_of_not_isManaged {s : Settings} (free : s.isManaged = false) :
    resolveRate s = .ok (.vbr (s.quality.getD 3 / 10)) := by
  unfold resolveRate
  cases quality : s.quality with
  | some quality => rfl
  | none =>
    have zero : s.bitRate = 0 := by simpa [isManaged, quality] using free
    simp only [if_pos zero]
    rfl

/-- What a managed rate is resolved to, word by word. -/
theorem of_resolveRate {s : Settings} (managed : s.isManaged = true) {control : RateControl}
    (resolved : resolveRate s = .ok control) :
    ∃ nominal min max, signedRate "bitrate" s.bitRate = .ok nominal ∧
      limit "minimum bitrate" s.minRate = .ok min ∧ limit "maximum bitrate" s.maxRate = .ok max ∧
      control = .managed nominal min max := by
  rw [resolveRate_of_isManaged managed] at resolved
  cases nominal : signedRate "bitrate" s.bitRate with
  | error failure => rw [nominal] at resolved; cases resolved
  | ok word =>
    cases lower : limit "minimum bitrate" s.minRate with
    | error failure => rw [nominal, lower] at resolved; cases resolved
    | ok min =>
      cases upper : limit "maximum bitrate" s.maxRate with
      | error failure => rw [nominal, lower, upper] at resolved; cases resolved
      | ok max =>
        rw [nominal, lower, upper] at resolved
        cases resolved
        exact ⟨_, _, _, rfl, rfl, rfl, rfl⟩

/-- Without limits, and only then, the slow rate management is turned off. -/
theorem disablesRateManagement_managed (nominal : Int64) (min max : Option Int64) :
    (RateControl.managed nominal min max).disablesRateManagement = !(min.isSome || max.isSome) := by
  cases min <;> cases max <;> rfl

/-! ## Lowpass and block bias -/

/-- Options that are all biases are resolved to the last of them. -/
theorem eq_of_resolveBias {options : List (String × String)} {start bias : Float}
    (resolved : resolveBias options start = .ok bias) :
    bias = ((options.reverse.lookup blockBiasName).map biasOf).getD start := by
  induction options generalizing start with
  | nil =>
    cases resolved
    rfl
  | cons option rest ih =>
    obtain ⟨name, value⟩ := option
    unfold resolveBias at resolved
    split at resolved
    · next same =>
      split at resolved
      · next read =>
        rw [ih resolved, List.reverse_cons, List.lookup_append]
        cases rest.reverse.lookup blockBiasName with
        | none => simp [same, biasOf, read, Except.toOption]
        | some last => rfl
      · cases resolved
    · cases resolved

/-! ## Resolved options -/

/-- Options are resolved part by part. -/
theorem parts_of_resolve {s : Settings} {options : EncodingOptions}
    (resolved : resolve s = .ok options) :
    resolveRate s = .ok options.rateControl ∧ resolveBias s.options 0 = .ok options.blockBias ∧
      options.lowpass = resolveLowpass s.cutoff := by
  simp only [resolve, bind, Except.bind] at resolved
  split at resolved
  · cases resolved
  · next control =>
    split at resolved
    · cases resolved
    · next bias =>
      split at resolved
      · cases resolved
      · cases resolved
        exact ⟨control, bias, rfl⟩

theorem rateSteps_of_resolve {s : Settings} {options : EncodingOptions}
    (resolved : resolve s = .ok options) :
    s.rateSteps = match options.rateControl with
      | .vbr quality => [.vbr options.channels options.rate quality]
      | .managed nominal min max =>
        .managed options.channels options.rate (max.getD (-1)) nominal (min.getD (-1)) ::
          if options.rateControl.disablesRateManagement then [.rateManagementOff] else [] := by
  obtain ⟨rate, channels, -, -⟩ := of_resolve resolved
  obtain ⟨control, -, -⟩ := parts_of_resolve resolved
  unfold rateSteps
  split
  · next managed =>
    obtain ⟨nominal, min, max, signed, lower, upper, same⟩ := of_resolveRate managed control
    obtain ⟨lowerWord, hasLower, -⟩ := limit_cases lower
    obtain ⟨upperWord, hasUpper, -⟩ := limit_cases upper
    simp only [same, rate, channels, disablesRateManagement_managed, (signedRate_eq_ok signed).1,
      lowerWord, upperWord, hasLower, hasUpper]
    cases isLimit s.minRate || isLimit s.maxRate <;> rfl
  · next free =>
    rw [resolveRate_of_not_isManaged (by simpa using free)] at control
    simp only [Except.ok.injEq] at control
    simp only [← control, rate, channels]

theorem lowpassSteps_eq (s : Settings) :
    s.lowpassSteps = match resolveLowpass s.cutoff with
      | some frequency => [.lowpass frequency]
      | none => [] := by
  unfold lowpassSteps
  cases s.cutoff with
  | none => rfl
  | some hertz =>
    by_cases zero : hertz = 0
    · cases zero
      rfl
    · have positive : 0 < hertz := UInt32.pos_iff_ne_zero.mpr zero
      simp [resolveLowpass, zero, positive]

/-- Resolved options lead to the steps that the settings ask for. -/
theorem setupSteps_of_resolve {s : Settings} {options : EncodingOptions}
    (resolved : resolve s = .ok options) : Session.setupSteps options = s.setupSteps := by
  obtain ⟨-, bias, lowpass⟩ := parts_of_resolve resolved
  have bias : options.blockBias = s.blockBias := eq_of_resolveBias bias
  rw [Settings.setupSteps, rateSteps_of_resolve resolved, lowpassSteps_eq, ← lowpass, ← bias]
  rfl

/-- A managed rate that passes its check has its limits in order. -/
theorem le_of_checkRateControl {nominal min max : Int64}
    (checked : checkRateControl (.managed nominal (some min) (some max)) = .ok ()) :
    min ≤ max := by
  simp only [checkRateControl] at checked
  split at checked
  · cases checked
  · next ordered => exact Int64.not_lt.mp ordered

/-- The rate control of checked options passes its own check. -/
theorem checkRateControl_of_check {options : EncodingOptions} (checked : options.check = .ok ()) :
    checkRateControl options.rateControl = .ok () := by
  unfold check at checked
  split at checked
  · cases checked
  · split at checked
    · cases checked
    · split at checked
      · cases checked
      · assumption

/-- A managed rate is told as the settings have it, if they ask for one. -/
theorem of_managed_mem_setupSteps {s : Settings} {channels : UInt16} {rate : UInt32}
    {max nominal min : Int64} (told : .managed channels rate max nominal min ∈ s.setupSteps) :
    s.isManaged = true ∧ max = limitWord s.maxRate ∧ nominal = Int64.ofNat s.bitRate.toNat ∧
      min = limitWord s.minRate := by
  simp only [Settings.setupSteps, List.mem_append] at told
  rcases told with ((rates | lowpass) | bias) | finish
  · unfold rateSteps at rates
    split at rates
    · next managed =>
      rcases List.mem_cons.mp rates with same | off
      · cases same
        exact ⟨managed, rfl, rfl, rfl⟩
      · split at off <;> simp at off
    · simp at rates
  · unfold lowpassSteps at lowpass
    split at lowpass
    · split at lowpass <;> simp at lowpass
    · simp at lowpass
  · split at bias <;> simp at bias
  · simp at finish

/-- The library is told the rates that the settings ask for, whole and in order. -/
theorem tellsRates_of_resolve {s : Settings} {options : EncodingOptions}
    (resolved : resolve s = .ok options) {channels : UInt16} {rate : UInt32}
    {max nominal min : Int64} (told : .managed channels rate max nominal min ∈ s.setupSteps) :
    s.TellsRates max nominal min := by
  obtain ⟨control, -, -⟩ := parts_of_resolve resolved
  have checked := checkRateControl_of_check (of_resolve resolved).2.2.2
  obtain ⟨managed, rfl, rfl, rfl⟩ := of_managed_mem_setupSteps told
  obtain ⟨nominal, min, max, signed, lower, upper, same⟩ := of_resolveRate managed control
  obtain ⟨lowerWord, -, lowerTold⟩ := limit_cases lower
  obtain ⟨upperWord, -, upperTold⟩ := limit_cases upper
  obtain ⟨rfl, whole⟩ := signedRate_eq_ok signed
  simp only [isManaged, Bool.and_eq_true, bne_iff_ne, ne_eq] at managed
  refine ⟨⟨positive_of_toInt whole (UInt64.pos_iff_ne_zero.mpr managed.2), whole⟩,
    lowerWord ▸ lowerTold, upperWord ▸ upperTold, ?_⟩
  intro positive positive'
  rw [← lowerWord] at positive ⊢
  rw [← upperWord] at positive' ⊢
  rw [same] at checked
  cases min with
  | none => cases positive
  | some min =>
    cases max with
    | none => cases positive'
    | some max => exact le_of_checkRateControl checked

/-! ## What is ignored -/

/-- What takes a zero for nothing loses nothing with it. -/
theorem eq_of_filter {α β : Type} [OfNat α 0] {p : α → Bool}
    (zero : ∀ item, p item = false → item = 0) {f : Option α → β}
    (ignored : f (some 0) = f none) (setting : Option α) :
    f (setting.filter p) = f setting := by
  cases setting with
  | none => rfl
  | some item =>
    rw [Option.filter_some]
    split
    · rfl
    · next dropped => rw [zero item (by simpa using dropped), ignored]

theorem limit_filter (what : String) (rate : Option UInt64) :
    limit what (rate.filter fun rate => 0 < rate) = limit what rate :=
  eq_of_filter (fun _ => by simp) rfl rate

theorem resolveLowpass_filter (cutoff : Option UInt32) :
    resolveLowpass (cutoff.filter fun hertz => 0 < hertz) = resolveLowpass cutoff :=
  eq_of_filter (fun _ => by simp) rfl cutoff

theorem isManaged_heeded (s : Settings) : s.heeded.isManaged = s.isManaged := by
  show (s.quality.isNone && (if s.isManaged then s.bitRate else 0) != 0) = s.isManaged
  cases managed : s.isManaged with
  | true => exact managed
  | false => simp

theorem resolveRate_heeded (s : Settings) : resolveRate s.heeded = resolveRate s := by
  have managed' := isManaged_heeded s
  cases managed : s.isManaged with
  | true =>
    rw [managed] at managed'
    rw [resolveRate_of_isManaged managed, resolveRate_of_isManaged managed']
    simp only [heeded, managed, if_true, limit_filter]
  | false =>
    rw [managed] at managed'
    rw [resolveRate_of_not_isManaged managed, resolveRate_of_not_isManaged managed', heeded]

/-- Settings are resolved as what is heeded of them, to the same options or the same failure. -/
theorem resolve_heeded (s : Settings) : resolve s.heeded = resolve s := by
  have lowpass : resolveLowpass s.heeded.cutoff = resolveLowpass s.cutoff :=
    resolveLowpass_filter s.cutoff
  simp only [resolve, resolveRate_heeded, lowpass]
  rfl

end EncodingOptions

namespace Settings

theorem filter_eq_of_sameButZero {α : Type} [OfNat α 0] {p : α → Bool} (zero : p 0 = false)
    {setting other : Option α} (h : SameButZero setting other) :
    setting.filter p = other.filter p := by
  have none : (some (0 : α)).filter p = none := by
    rw [Option.filter_some, if_neg (by rw [zero]; exact Bool.false_ne_true)]
  rcases h with rfl | ⟨rfl, rfl⟩ | ⟨rfl, rfl⟩
  · rfl
  · exact none
  · exact none.symm

/-- Settings that differ only in what is ignored have the same heeded. -/
theorem Alike.heeded_eq {s t : Settings} (h : s.Alike t) : s.heeded = t.heeded := by
  cases h with
  | quality wanted bitRate minRate maxRate =>
    have none : s.quality.isNone = false := by rw [← Option.not_isSome, wanted]; rfl
    simp [heeded, isManaged, none]
  | unmanaged none zero minRate maxRate => simp [heeded, isManaged, zero]
  | zeros lower upper lowpass =>
    simp only [heeded, isManaged, filter_eq_of_sameButZero (p := fun rate => 0 < rate) rfl lower,
      filter_eq_of_sameButZero (p := fun rate => 0 < rate) rfl upper,
      filter_eq_of_sameButZero (p := fun hertz => 0 < hertz) rfl lowpass]
    rfl

end Settings

end VorbisTrack
