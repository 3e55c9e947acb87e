import VorbisTrack.Proofs.Command.Encode
import VorbisTrack.Proofs.Encoder.Tags

/-!
# Comments of the command line

A comment is cut at its first equals sign. Where all comments can be, have a key and are free of
NULs (`IsTagText`), they stand in the comment block as they were given. Otherwise the settings
cannot be made or cannot be resolved, and the library is not called
(`comments_areVerbatim`).
-/

set_option autoImplicit false

namespace VorbisTrack

/-- Calls that go by a plan are some, if the plan has one. -/
theorem Attempt.ne_nil {plan : List Call} {end? : Option Failure} {events : List Event}
    (h : Attempt plan end? events) (planned : plan ≠ []) : events ≠ [] := by
  cases h with
  | whole made _ =>
    rintro rfl
    exact planned made.symm
  | brokenOff => exact List.append_ne_nil_of_right_ne_nil _ (List.cons_ne_nil _ _)

namespace EncodingOptions

/-- Options keep their limits with other tags, if these can stand in a comment header. -/
theorem check_withComments {options : EncodingOptions} (checked : options.check = .ok ())
    {comments : List (String × String)} (clean : ∀ comment ∈ comments, isComment comment = true) :
    { options with comments }.check = .ok () := by
  have found : comments.find? (fun comment => !isComment comment) = none := by
    rw [List.find?_eq_none]
    intro comment member
    rw [clean comment member]
    exact Bool.false_ne_true
  unfold check at checked ⊢
  split at checked
  · cases checked
  · next rate =>
    rw [if_neg rate]
    split at checked
    · cases checked
    · next channels =>
      rw [if_neg channels]
      split at checked
      · cases checked
      · next control =>
        split at checked
        · cases checked
        · next bias =>
          rw [control]
          simp only [bias, if_false, found]

theorem resolve_withComments {settings : Settings} {options : EncodingOptions}
    (resolved : resolve settings = .ok options) {comments : List (String × String)}
    (clean : ∀ comment ∈ comments, isComment comment = true) :
    resolve { settings with comments } = .ok { options with comments } := by
  simp only [resolve, bind, Except.bind] at resolved
  split at resolved
  · cases resolved
  · next control =>
    split at resolved
    · cases resolved
    · next bias =>
      split at resolved
      · cases resolved
      · next checked =>
        cases resolved
        have again : resolveRate { settings with comments } = resolveRate settings := rfl
        simp only [resolve, bind, Except.bind, again, control, bias,
          check_withComments checked clean]
        rfl

end EncodingOptions

namespace Command

variable {σ : Type}

/-! ## One comment -/

/-- A comment that stands in the comment block as it is. -/
structure IsTagText (comment : String) : Prop where
  separated : '=' ∈ comment.toList
  named : comment.toList.head? ≠ some '='
  clean : '\x00' ∉ comment.toList

namespace Tuning

theorem readComment_of_not_mem {comment : String} (whole : '=' ∉ comment.toList) :
    readComment comment = .error (.malformedComment comment) := by
  rw [readComment, splitFirst?_eq_none_iff.mpr whole]

/-- The key of a comment ends where its first equals sign is. -/
theorem isTag_iff_isTagText {comment : String} {key value : List Char}
    (whole : comment.toList = key ++ '=' :: value) (unseparated : '=' ∉ key) :
    IsTag (String.ofList key, String.ofList value) ↔ IsTagText comment := by
  have named : String.ofList key ≠ "" ↔ comment.toList.head? ≠ some '=' := by
    rw [← String.toList_inj.ne, String.toList_ofList, whole]
    cases key with
    | nil => exact iff_of_false (fun some_ => some_ rfl) (fun other => other rfl)
    | cons c rest =>
      refine iff_of_true (List.cons_ne_nil _ _) ?_
      rintro same
      cases same
      exact unseparated (List.mem_cons_self ..)
  have clean : '\x00' ∉ comment.toList ↔ '\x00' ∉ key ∧ '\x00' ∉ value := by
    rw [whole, List.mem_append, List.mem_cons, or_iff_right (by decide : ¬ '\x00' = '='), not_or]
  constructor
  · rintro ⟨hasKey, -, keyClean, valueClean⟩
    rw [String.toList_ofList] at keyClean valueClean
    exact ⟨whole ▸ List.mem_append_right _ (List.mem_cons_self ..), named.mp hasKey,
      clean.mpr ⟨keyClean, valueClean⟩⟩
  · rintro ⟨-, hasKey, noNul⟩
    obtain ⟨keyClean, valueClean⟩ := clean.mp noNul
    refine ⟨named.mpr hasKey, ?_, ?_, ?_⟩ <;> rwa [String.toList_ofList]

/-- A comment is cut into a tag that stands for the same text. -/
theorem readComment_of_mem {comment : String} (separated : '=' ∈ comment.toList) :
    ∃ tag, readComment comment = .ok tag ∧ tagText tag = comment ∧
      (IsTag tag ↔ IsTagText comment) := by
  cases parts : splitFirst? '=' comment.toList with
  | none => exact absurd separated (splitFirst?_eq_none_iff.mp parts)
  | some cut =>
    obtain ⟨key, value⟩ := cut
    obtain ⟨whole, unseparated⟩ := of_splitFirst? parts
    refine ⟨(String.ofList key, String.ofList value), by rw [readComment, parts], ?_, ?_⟩
    · rw [← String.toList_inj, toList_tagText, whole, String.toList_ofList, String.toList_ofList]
    · exact isTag_iff_isTagText whole unseparated

/-! ## All comments -/

/-- The comments of a tuning are cut into tags, or one of them cannot be. -/
theorem mapM_readComment (comments : List String) :
    (∃ comment ∈ comments, '=' ∉ comment.toList ∧
        comments.mapM readComment = .error (.malformedComment comment)) ∨
      (∀ comment ∈ comments, '=' ∈ comment.toList) ∧
        ∃ tags, comments.mapM readComment = .ok tags ∧ tags.map tagText = comments ∧
          ((∀ tag ∈ tags, IsTag tag) ↔ ∀ comment ∈ comments, IsTagText comment) := by
  induction comments with
  | nil => exact .inr ⟨by simp, [], rfl, rfl, by simp⟩
  | cons comment rest ih =>
    rw [List.mapM_cons]
    by_cases separated : '=' ∈ comment.toList
    · obtain ⟨tag, read, same, isTag⟩ := readComment_of_mem separated
      rw [read]
      rcases ih with ⟨other, member, unseparated, failed⟩ | ⟨all, tags, others, texts, areTags⟩
      · rw [failed]
        exact .inl ⟨other, List.mem_cons_of_mem _ member, unseparated, rfl⟩
      · rw [others]
        refine .inr ⟨List.forall_mem_cons.mpr ⟨separated, all⟩, tag :: tags, rfl, ?_, ?_⟩
        · rw [List.map_cons, same, texts]
        · rw [List.forall_mem_cons, List.forall_mem_cons, isTag, areTags]
    · rw [readComment_of_not_mem separated]
      exact .inl ⟨comment, List.mem_cons_self .., separated, rfl⟩

/-! ## Settings -/

/-- The settings without the comments can be made and resolved. -/
def IsSound (tuning : Tuning) (rate : UInt32) (channels : UInt16) : Prop :=
  ∃ base options, { tuning with comments := [] }.settings rate channels = .ok base ∧
    EncodingOptions.resolve base = .ok options

/-- The comments add nothing to the settings but their tags. -/
theorem settings_of_untagged {tuning : Tuning} {rate : UInt32} {channels : UInt16}
    {base : Settings} (settled : { tuning with comments := [] }.settings rate channels = .ok base) :
    tuning.settings rate channels =
      (tuning.comments.mapM readComment).map fun comments => { base with comments } := by
  obtain ⟨bitRate, minRate, maxRate, comments, nominal, lower, upper, -, rfl⟩ :=
    settings_eq_ok settled
  simp only [settings, bind, Except.bind, nominal, lower, upper]
  cases tuning.comments.mapM readComment <;> rfl

/-- Comments that cannot all stand in the comment block as they are make the settings fail before
the library is called. -/
theorem open_of_not_isTagText {tuning : Tuning} {comment : String}
    (member : comment ∈ tuning.comments) (unfit : ¬ IsTagText comment) {rate : UInt32}
    {channels : UInt16} {settings : Settings}
    (settled : tuning.settings rate channels = .ok settings) (lib : Library σ) :
    ∃ failure, Encoder.open lib settings = (.error failure, []) := by
  obtain ⟨_, _, _, comments, -, -, -, read, same⟩ := settings_eq_ok settled
  apply Encoder.open_of_turnedAway
  cases resolved : EncodingOptions.resolve settings with
  | error failure => exact .inr ⟨failure, resolved⟩
  | ok options =>
    have clean := Encoder.isTag_of_resolve resolved
    rcases mapM_readComment tuning.comments with ⟨_, -, -, failed⟩ | ⟨-, tags, all, -, areTags⟩
    · rw [failed] at read
      cases read
    · cases all.symm.trans read
      refine absurd (areTags.mp (fun tag among => ?_) comment member) unfit
      exact clean tag (List.mem_cons_of_mem _ (by rw [same]; exact among))

structure CarriesComments (lib : Library σ) (tuning : Tuning) (rate : UInt32)
    (channels : UInt16) : Prop where
  /-- A comment without an equals sign is refused. -/
  refused : tuning.IsSound rate channels → (∃ comment ∈ tuning.comments, '=' ∉ comment.toList) →
    ∃ comment ∈ tuning.comments, '=' ∉ comment.toList ∧
      tuning.settings rate channels = .error (.malformedComment comment)
  /-- Comments with a key and without NULs are the tags that the comment block gets after that of
  the encoder. -/
  carried : tuning.IsSound rate channels → (∀ comment ∈ tuning.comments, IsTagText comment) →
    ∃ settings options, tuning.settings rate channels = .ok settings ∧
      EncodingOptions.resolve settings = .ok options ∧
      settings.comments.map tagText = tuning.comments ∧
      (Encoder.open lib settings).2 ≠ [] ∧
      ((∃ event ∈ (Encoder.open lib settings).2, event.call = .commentInit) →
        (Encoder.open lib settings).2.filterMap (Call.tag? ∘ Event.call) =
          ("encoder=" ++ Encoder.ident) :: tuning.comments)
  /-- With any other comments the library is not called. -/
  uncalled : (∃ comment ∈ tuning.comments, ¬ IsTagText comment) →
    ∀ settings, tuning.settings rate channels = .ok settings →
      (Encoder.open lib settings).2 = []

theorem carriesComments (lib : Library σ) (tuning : Tuning) (rate : UInt32) (channels : UInt16) :
    tuning.CarriesComments lib rate channels where
  refused sound malformed := by
    obtain ⟨base, _, settled, -⟩ := sound
    rw [settings_of_untagged settled]
    rcases mapM_readComment tuning.comments with
      ⟨comment, member, whole, failed⟩ | ⟨all, -⟩
    · exact ⟨comment, member, whole, by rw [failed]; rfl⟩
    · obtain ⟨comment, member, whole⟩ := malformed
      exact absurd (all comment member) whole
  carried sound fit := by
    obtain ⟨base, options, settled, resolved⟩ := sound
    rw [settings_of_untagged settled]
    rcases mapM_readComment tuning.comments with
      ⟨comment, member, whole, -⟩ | ⟨-, tags, read, texts, areTags⟩
    · exact absurd (fit comment member).separated whole
    · have clean : ∀ tag ∈ tags, EncodingOptions.isComment tag = true :=
        fun tag among => isTag_iff_isComment.mp (areTags.mpr fit tag among)
      have again := EncodingOptions.resolve_withComments resolved clean
      have carries := Encoder.open_carriesTags again lib
      refine ⟨{ base with comments := tags }, _, by rw [read]; rfl, again, texts, ?_,
        fun begun => by rw [carries.added begun, texts]⟩
      obtain ⟨rated, -, -, checked⟩ := EncodingOptions.of_resolve resolved
      obtain ⟨forRate, -, timeBase, -⟩ := of_settings settled
      have valid : { base with comments := tags }.timeBase.isTimeBase = true := by
        show base.timeBase.isTimeBase = true
        rw [timeBase, ← forRate, ← rated]
        exact Rational.isTimeBase_perSample (EncodingOptions.of_check checked).1
      exact (Encoder.attempt_open lib valid again).ne_nil (List.cons_ne_nil _ _)
  uncalled := by
    rintro ⟨comment, member, unfit⟩ settings settled
    obtain ⟨failure, opened⟩ := open_of_not_isTagText member unfit settled lib
    rw [opened]

end Tuning

/-- A file is not encoded, then, and the library is not called. -/
theorem calls_of_not_isTagText {tuning : Tuning} {comment : String}
    (member : comment ∈ tuning.comments) (unfit : ¬ IsTagText comment) (lib : Library σ)
    (input output : String) (files : FileTree) :
    (encodeFile lib tuning input output files).calls = [] := by
  unfold encodeFile
  split
  · rfl
  · next source settings prepared =>
    simp only [prepare, bind, Except.bind, pure, Except.pure] at prepared
    split at prepared
    · cases prepared
    · split at prepared
      · cases prepared
      · next settled =>
        cases prepared
        obtain ⟨failure, opened⟩ := Tuning.open_of_not_isTagText member unfit settled lib
        rw [opened]

/-- **Comments are verbatim.** The tags of settings that are resolved reach the comment block whole
and in order, behind that of the encoder, and can be taken apart there; a NUL in them is never found
as late as that. The comments of the command line are refused, or they are tags in just this way, or
the library is not called. -/
theorem comments_areVerbatim (lib : Library σ) :
    (∀ settings options, EncodingOptions.resolve settings = .ok options →
      Encoder.CarriesTags lib settings) ∧
    (∀ settings failure, (Encoder.open lib settings).1 = .error failure →
      failure.isNul = false) ∧
    ∀ tuning : Tuning, (∀ rate channels, tuning.CarriesComments lib rate channels) ∧
      ((∃ comment ∈ tuning.comments, ¬ IsTagText comment) → ∀ input output files,
        (encodeFile lib tuning input output files).calls = []) := by
  refine ⟨fun _ _ resolved => Encoder.open_carriesTags resolved lib,
    fun _ _ failed => Encoder.isNul_of_open failed,
    fun tuning => ⟨Tuning.carriesComments lib tuning, ?_⟩⟩
  rintro ⟨comment, member, unfit⟩ input output files
  exact calls_of_not_isTagText member unfit lib input output files

/-- A comment with two equals signs, given twice, and one without a value. -/
def repeatedTuning : Tuning :=
  { bitrate := some "32000", comments := ["TITLE=a=b", "TITLE=a=b", "DATE="] }

/-- All three stand in the comment block, although the header packets cannot be made then. -/
theorem comments_areVerbatim_repeated :
    ∃ settings, repeatedTuning.settings 8000 1 = .ok settings ∧
      settings.comments = [("TITLE", "a=b"), ("TITLE", "a=b"), ("DATE", "")] ∧
      (Encoder.open Encoder.headerlessScript.library settings).2.filterMap
          (Call.tag? ∘ Event.call) =
        ["encoder=zvd-vorbis 0.1.0", "TITLE=a=b", "TITLE=a=b", "DATE="] := by
  have ready : (({ repeatedTuning with comments := [] } : Tuning).settings 8000 1).toOption.any
      (fun base => (EncodingOptions.resolve base).toOption.isSome) = true := by
    decide +kernel
  obtain ⟨base, settled, resolved⟩ := (Option.any_eq_true ..).mp ready
  obtain ⟨options, resolved⟩ := Option.isSome_iff_exists.mp resolved
  have fit : ∀ comment ∈ repeatedTuning.comments, IsTagText comment := by
    intro comment member
    have parts : '=' ∈ comment.toList ∧ comment.toList.head? ≠ some '=' ∧
        '\x00' ∉ comment.toList := by
      revert comment
      decide
    exact ⟨parts.1, parts.2.1, parts.2.2⟩
  obtain ⟨settings, _, settled, -, -, -, added⟩ :=
    (((comments_areVerbatim Encoder.headerlessScript.library).2.2 repeatedTuning).1 8000 1).carried
      ⟨base, options, ok_of_toOption settled, ok_of_toOption resolved⟩ fit
  have begun : (repeatedTuning.settings 8000 1).toOption.any (fun settings =>
      settings.comments = [("TITLE", "a=b"), ("TITLE", "a=b"), ("DATE", "")] ∧
        (Encoder.open Encoder.headerlessScript.library settings).2.any fun event =>
          event.call.routine = .commentInit) = true := by
    decide +kernel
  rw [settled] at begun
  obtain ⟨cut, begun⟩ := of_decide_eq_true begun
  obtain ⟨⟨call, _⟩, member, same⟩ := List.any_eq_true.mp begun
  refine ⟨settings, settled, cut, added ⟨_, member, ?_⟩⟩
  cases call with
  | commentInit => rfl
  | setup step => cases step <;> cases of_decide_eq_true same
  | _ => cases of_decide_eq_true same

end Command

end VorbisTrack
