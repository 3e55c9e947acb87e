import Mathlib.Data.List.TakeWhile
import VorbisTrack.Proofs.Encoder.Opening
import VorbisTrack.Proofs.Text

/-!
# Tags in the comment block

A tag is a key and a value. It stands in the comment block as one text, with an equals sign between
the two (`tagText`), and the library takes key and value in only up to their first NUL (`heard`).
Settings that are resolved have tags that lose nothing by that and can be taken apart again
(`IsTag`). So the comment block gets the tag of the encoder and those of the settings, whole and in
order (`Encoder.open_carriesTags`), and no encoder fails to open because of a NUL
(`Encoder.isNul_of_open`).

The calls that start and fill the comment block stand next to each other in the plan of an opening,
and none of them can fail. So they are all made, or none of them is
(`Encoder.tagCallsOf_of_attempt`).
-/

set_option autoImplicit false

namespace VorbisTrack

variable {σ : Type}

/-! ## Tags -/

/-- A text as the library takes it in: it ends at the first NUL. -/
def heard (text : String) : String :=
  String.ofList (text.toList.takeWhile (· != '\x00'))

def tagText (tag : String × String) : String :=
  tag.1 ++ "=" ++ tag.2

/-- A tag that loses nothing on its way to the comment block and can be taken apart there. -/
structure IsTag (tag : String × String) : Prop where
  named : tag.1 ≠ ""
  unseparated : '=' ∉ tag.1.toList
  key : '\x00' ∉ tag.1.toList
  value : '\x00' ∉ tag.2.toList

theorem isTag_iff_isComment {tag : String × String} :
    IsTag tag ↔ EncodingOptions.isComment tag = true := by
  have named : tag.1.toList.isEmpty = false ↔ tag.1 ≠ "" := by
    rw [List.isEmpty_eq_false_iff, ne_eq, ne_eq, String.toList_eq_nil_iff]
  simp only [EncodingOptions.isComment, Bool.and_eq_true, Bool.not_eq_true', named,
    List.contains_eq_mem, decide_eq_false_iff_not]
  exact ⟨fun h => ⟨⟨⟨h.named, h.unseparated⟩, h.key⟩, h.value⟩,
    fun h => ⟨h.1.1.1, h.1.1.2, h.1.2, h.2⟩⟩

theorem toList_tagText (tag : String × String) :
    (tagText tag).toList = tag.1.toList ++ '=' :: tag.2.toList := by
  rw [tagText, String.toList_append, String.toList_append, List.append_assoc]
  rfl

/-- A text without a NUL is taken in whole. -/
theorem heard_eq_self {text : String} (clean : '\x00' ∉ text.toList) : heard text = text := by
  have passed : ∀ c ∈ text.toList, (c != '\x00') = true := by
    intro c member
    rw [bne_iff_ne]
    rintro rfl
    exact clean member
  rw [heard, List.takeWhile_eq_self_iff.mpr passed, String.ofList_toList]

namespace IsTag

variable {tag : String × String}

theorem heard_eq (h : IsTag tag) : tagText (heard tag.1, heard tag.2) = tagText tag := by
  rw [heard_eq_self h.key, heard_eq_self h.value]

/-- Where a tag has its first equals sign, its key ends. -/
theorem splitFirst?_tagText (h : IsTag tag) :
    splitFirst? '=' (tagText tag).toList = some (tag.1.toList, tag.2.toList) := by
  rw [toList_tagText]
  exact splitFirst?_append h.unseparated _

end IsTag

/-! ## Calls for the comment block -/

def Call.tag? : Call → Option String
  | .commentAdd key value => some (tagText (heard key, heard value))
  | _ => none

/-- The call starts the comment block or adds to it. -/
def Call.isForTags : Call → Bool
  | .commentInit | .commentAdd .. => true
  | _ => false

def tagCalls (comments : List (String × String)) : List Call :=
  .commentInit :: comments.map fun tag => .commentAdd tag.1 tag.2

theorem isForTags_of_mem_tagCalls {comments : List (String × String)} {call : Call}
    (member : call ∈ tagCalls comments) : call.isForTags = true := by
  rcases List.mem_cons.mp member with rfl | added
  · rfl
  · obtain ⟨tag, -, rfl⟩ := List.mem_map.mp added
    rfl

/-- Tags that lose nothing are added whole and in order. -/
theorem filterMap_tagCalls {comments : List (String × String)}
    (clean : ∀ tag ∈ comments, IsTag tag) :
    (tagCalls comments).filterMap Call.tag? = comments.map tagText := by
  rw [tagCalls, List.filterMap_cons_none rfl]
  induction comments with
  | nil => rfl
  | cons tag rest ih =>
    have whole : (Call.commentAdd tag.1 tag.2).tag? = some (tagText tag) :=
      congrArg some (clean tag (List.mem_cons_self ..)).heard_eq
    rw [List.map_cons, List.filterMap_cons_some whole, List.map_cons,
      ih fun other member => clean other (List.mem_cons_of_mem _ member)]

/-- Only a call that is for tags adds one. -/
theorem Call.filterMap_filter (calls : List Call) :
    (calls.filter isForTags).filterMap tag? = calls.filterMap tag? := by
  rw [List.filterMap_filter]
  congr 1
  funext call
  cases call <;> rfl

theorem Call.isForTags_of_isTeardown {call : Call} (teardown : call.isTeardown = true) :
    call.isForTags = false := by
  cases call with
  | commentInit => cases teardown
  | commentAdd => cases teardown
  | _ => rfl

/-- A call that can fail is not for tags. -/
theorem Event.isForTags_of_openingCode? {event : Event} {code : Int32}
    (told : event.openingCode? = some code) : event.call.isForTags = false := by
  obtain ⟨call, answer⟩ := event
  cases call with
  | commentInit => cases told
  | commentAdd => cases told
  | _ => rfl

/-- A list that is cut at an item outside of a block has the whole block before the cut, or nothing
of it. -/
theorem filter_of_cut {α : Type} {p : α → Bool} {before todo opening block closing : List α}
    {last : α} (cut : before ++ last :: todo = opening ++ (block ++ closing))
    (outside : p last = false) (opens : opening.filter p = []) (inside : ∀ x ∈ block, p x = true)
    (closes : closing.filter p = []) :
    before.filter p = [] ∨ before.filter p = block := by
  have whole : block.filter p = block := List.filter_eq_self.mpr inside
  rcases List.append_eq_append_iff.mp cut with ⟨rest, rfl, -⟩ | ⟨more, rfl, later⟩
  · rw [List.filter_append, List.append_eq_nil_iff] at opens
    exact .inl opens.1
  · rw [List.filter_append, opens, List.nil_append]
    rcases List.append_eq_append_iff.mp later.symm with ⟨rest, same, tail⟩ | ⟨rest, rfl, rfl⟩
    · cases rest with
      | nil =>
        rw [List.append_nil] at same
        exact .inr (same ▸ whole)
      | cons _ rest =>
        cases tail
        have member : last ∈ block := same ▸ List.mem_append_right _ (List.mem_cons_self ..)
        rw [inside last member] at outside
        cases outside
    · rw [List.filter_append, List.append_eq_nil_iff] at closes
      exact .inr (by rw [List.filter_append, whole, closes.1, List.append_nil])

namespace Encoder

def tagCallsOf (trace : List Event) : List Call :=
  (trace.map Event.call).filter Call.isForTags

/-- Of the plan by which an encoder is opened, the calls for tags are made all or not at all, and an
opening that succeeds has made them. -/
theorem tagCallsOf_of_attempt {settings : Settings} {end? : Option Failure} {trace : List Event}
    (attempt : Attempt settings.openingCalls end? trace) :
    (tagCallsOf trace = [] ∧ end?.isSome = true) ∨
      tagCallsOf trace = tagCalls (("encoder", ident) :: settings.comments) := by
  have plan : settings.openingCalls =
      Session.openingCalls settings.setupSteps ++
        (tagCalls (("encoder", ident) :: settings.comments) ++ [.headerOut, .commentClear]) := rfl
  have opens : (Session.openingCalls settings.setupSteps).filter Call.isForTags = [] := by
    rw [List.filter_eq_nil_iff]
    simp only [Session.openingCalls, List.cons_append, List.mem_cons, List.mem_append, List.mem_map,
      List.not_mem_nil, or_false]
    rintro call (rfl | ⟨step, -, rfl⟩ | rfl | rfl) <;> exact Bool.false_ne_true
  have inside : ∀ call ∈ tagCalls (("encoder", ident) :: settings.comments),
      call.isForTags = true := fun _ => isForTags_of_mem_tagCalls
  cases attempt with
  | whole made _ =>
    right
    rw [tagCallsOf, made, plan, List.filter_append, opens, List.filter_append,
      List.filter_eq_self.mpr inside]
    exact List.append_nil _
  | @brokenOff before after last code todo made _ failed teardown =>
    have outside := Event.isForTags_of_openingCode? failed.1
    have givenBack : tagCallsOf after = [] := by
      rw [tagCallsOf, List.filter_eq_nil_iff]
      rintro _ member
      obtain ⟨event, told, rfl⟩ := List.mem_map.mp member
      rw [Call.isForTags_of_isTeardown (teardown event told)]
      exact Bool.false_ne_true
    have kept : tagCallsOf (before ++ last :: after) = tagCallsOf before := by
      rw [tagCallsOf, List.map_append, List.filter_append, List.map_cons,
        List.filter_cons_of_neg (by rw [outside]; exact Bool.false_ne_true)]
      exact (congrArg _ givenBack).trans (List.append_nil _)
    rw [kept]
    refine (filter_of_cut (made.trans plan) outside opens inside rfl).imp_left ?_
    exact fun none => ⟨none, rfl⟩

/-- The tags of settings reach the comment block, if opening an encoder with them gets that far. -/
structure CarriesTags (lib : Library σ) (settings : Settings) : Prop where
  /-- A comment block is given the encoder's tag and those of the settings, whole and in order. -/
  added : (∃ event ∈ (Encoder.open lib settings).2, event.call = .commentInit) →
    (Encoder.open lib settings).2.filterMap (Call.tag? ∘ Event.call) =
      ("encoder=" ++ ident) :: settings.comments.map tagText
  /-- Without a comment block there is nothing to add to. -/
  unstarted : (∀ event ∈ (Encoder.open lib settings).2, event.call ≠ .commentInit) →
    (Encoder.open lib settings).2.filterMap (Call.tag? ∘ Event.call) = []
  /-- An encoder that is open has had one. -/
  opened : (Encoder.open lib settings).1.isOk = true →
    ∃ event ∈ (Encoder.open lib settings).2, event.call = .commentInit
  /-- Each tag can be taken apart where its first equals sign is. -/
  separable : ∀ tag ∈ ("encoder", ident) :: settings.comments,
    IsTag tag ∧ splitFirst? '=' (tagText tag).toList = some (tag.1.toList, tag.2.toList)

theorem filterMap_tagCallsOf (trace : List Event) :
    (tagCallsOf trace).filterMap Call.tag? = trace.filterMap (Call.tag? ∘ Event.call) := by
  rw [tagCallsOf, Call.filterMap_filter, List.filterMap_map]

theorem commentInit_mem_iff (trace : List Event) :
    Call.commentInit ∈ tagCallsOf trace ↔ ∃ event ∈ trace, event.call = .commentInit := by
  rw [tagCallsOf, List.mem_filter, List.mem_map]
  exact and_iff_left rfl

/-- Tags of settings that are resolved lose nothing. -/
theorem isTag_of_resolve {settings : Settings} {options : EncodingOptions}
    (resolved : EncodingOptions.resolve settings = .ok options) :
    ∀ tag ∈ ("encoder", ident) :: settings.comments, IsTag tag := by
  obtain ⟨-, -, comments, checked⟩ := EncodingOptions.of_resolve resolved
  intro tag member
  rw [isTag_iff_isComment]
  rcases List.mem_cons.mp member with rfl | member
  · decide
  · exact (EncodingOptions.of_check checked).2.2 tag (comments ▸ member)

/-- What the calls for tags of an opening are. -/
theorem tagCallsOf_open {settings : Settings} {options : EncodingOptions}
    (resolved : EncodingOptions.resolve settings = .ok options) (lib : Library σ) :
    (tagCallsOf (Encoder.open lib settings).2 = [] ∧
        (Encoder.open lib settings).1.isOk = false) ∨
      tagCallsOf (Encoder.open lib settings).2 =
        tagCalls (("encoder", ident) :: settings.comments) := by
  by_cases base : settings.timeBase.isTimeBase = true
  · refine (tagCallsOf_of_attempt (attempt_open lib base resolved)).imp_left ?_
    rintro ⟨none, failed⟩
    refine ⟨none, ?_⟩
    cases result : (Encoder.open lib settings).1 with
    | error _ => rfl
    | ok _ =>
      rw [result] at failed
      cases failed
  · left
    obtain ⟨failure, turned⟩ :=
      open_of_turnedAway (.inl (Bool.eq_false_iff.mpr base) : TurnedAway settings) lib
    rw [turned]
    exact ⟨rfl, rfl⟩

/-- Settings that are resolved have their tags carried to the comment block. -/
theorem open_carriesTags {settings : Settings} {options : EncodingOptions}
    (resolved : EncodingOptions.resolve settings = .ok options) (lib : Library σ) :
    CarriesTags lib settings := by
  have clean := isTag_of_resolve resolved
  have started : Call.commentInit ∈ tagCalls (("encoder", ident) :: settings.comments) :=
    List.mem_cons_self ..
  have separable : ∀ tag ∈ ("encoder", ident) :: settings.comments,
      IsTag tag ∧ splitFirst? '=' (tagText tag).toList = some (tag.1.toList, tag.2.toList) :=
    fun tag member => ⟨clean tag member, (clean tag member).splitFirst?_tagText⟩
  rcases tagCallsOf_open resolved lib with ⟨none, failed⟩ | all
  · refine ⟨?_, fun _ => ?_, fun ok => ?_, separable⟩
    · rw [← commentInit_mem_iff, none]
      exact fun member => by cases member
    · rw [← filterMap_tagCallsOf, none]
      rfl
    · rw [failed] at ok
      cases ok
  · refine ⟨fun _ => ?_, fun unstarted => ?_, fun _ => ?_, separable⟩
    · rw [← filterMap_tagCallsOf, all, filterMap_tagCalls clean]
      rfl
    · obtain ⟨event, member, same⟩ := (commentInit_mem_iff _).mp (all ▸ started)
      exact absurd same (unstarted event member)
    · exact (commentInit_mem_iff _).mp (all ▸ started)

end Encoder

/-! ## Texts with a NUL -/

def Failure.isNul : Failure → Bool
  | .nulInCommentKey _ | .nulInCommentValue _ => true
  | _ => false

/-- What is done in two steps fails because of a NUL only if one of them does. -/
theorem Failure.isNul_of_bind {α β : Type} {first : Except Failure α}
    {next : α → Except Failure β} {failure : Failure} (failed : first >>= next = .error failure)
    (early : first = .error failure → failure.isNul = false)
    (late : ∀ value, next value = .error failure → failure.isNul = false) :
    failure.isNul = false := by
  cases first with
  | error other =>
    cases failed
    exact early rfl
  | ok value => exact late value failed

namespace EncodingOptions

theorem isNul_of_signedRate {what : String} {rate : UInt64} {failure : Failure}
    (failed : signedRate what rate = .error failure) : failure.isNul = false := by
  unfold signedRate at failed
  split at failed
  · cases failed
  · cases failed
    rfl

theorem isNul_of_limit {what : String} {rate : Option UInt64} {failure : Failure}
    (failed : limit what rate = .error failure) : failure.isNul = false := by
  unfold limit at failed
  split at failed
  · cases failed
  · next rate =>
    split at failed
    · cases failed
    · cases told : signedRate what rate with
      | ok _ =>
        rw [told] at failed
        cases failed
      | error other =>
        rw [told] at failed
        cases failed
        exact isNul_of_signedRate told

theorem isNul_of_resolveRate {settings : Settings} {failure : Failure}
    (failed : resolveRate settings = .error failure) : failure.isNul = false := by
  unfold resolveRate at failed
  split at failed
  · cases failed
  · split at failed
    · cases failed
    · refine Failure.isNul_of_bind failed isNul_of_signedRate fun _ failed => ?_
      refine Failure.isNul_of_bind failed isNul_of_limit fun _ failed => ?_
      refine Failure.isNul_of_bind failed isNul_of_limit fun _ failed => ?_
      cases failed

theorem isNul_of_resolveBias {options : List (String × String)} {bias : Float} {failure : Failure}
    (failed : resolveBias options bias = .error failure) : failure.isNul = false := by
  induction options generalizing bias with
  | nil => cases failed
  | cons option rest ih =>
    unfold resolveBias at failed
    split at failed
    · split at failed
      · exact ih failed
      · cases failed
        rfl
    · cases failed
      rfl

theorem isNul_of_checkRateControl {control : RateControl} {failure : Failure}
    (failed : checkRateControl control = .error failure) : failure.isNul = false := by
  unfold checkRateControl checkQuality at failed
  split at failed
  · split at failed <;> cases failed
    rfl
  · repeat' split at failed
    all_goals cases failed
    all_goals rfl

/-- The check of options tells of an invalid tag at worst. -/
theorem isNul_of_check {options : EncodingOptions} {failure : Failure}
    (failed : options.check = .error failure) : failure.isNul = false := by
  unfold check at failed
  split at failed
  · cases failed
    rfl
  · split at failed
    · cases failed
      rfl
    · split at failed
      · next told =>
        cases failed
        exact isNul_of_checkRateControl told
      · repeat' split at failed
        all_goals cases failed
        all_goals rfl

theorem isNul_of_resolve {settings : Settings} {failure : Failure}
    (failed : resolve settings = .error failure) : failure.isNul = false := by
  refine Failure.isNul_of_bind failed isNul_of_resolveRate fun _ failed => ?_
  refine Failure.isNul_of_bind failed isNul_of_resolveBias fun _ failed => ?_
  refine Failure.isNul_of_bind failed isNul_of_check fun _ failed => ?_
  cases failed

end EncodingOptions

/-- No encoder fails to open because of a NUL: an invalid tag is found when the settings are
resolved, before there is a session. -/
theorem Encoder.isNul_of_open {settings : Settings} {failure : Failure} {lib : Library σ}
    (failed : (Encoder.open lib settings).1 = .error failure) : failure.isNul = false := by
  by_cases base : settings.timeBase.isTimeBase = true
  · cases resolved : EncodingOptions.resolve settings with
    | error other =>
      simp only [«open», base, not_true, if_false, resolved] at failed
      cases failed
      exact EncodingOptions.isNul_of_resolve resolved
    | ok options =>
      have attempt := attempt_open lib base resolved
      rw [failed] at attempt
      generalize (Encoder.open lib settings).2 = trace at attempt
      cases attempt with
      | brokenOff => rfl
  · rw [«open», if_pos base] at failed
    cases failed
    rfl

end VorbisTrack
