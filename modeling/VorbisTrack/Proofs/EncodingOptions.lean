import VorbisTrack.Encoder

/-!
# What resolved options guarantee

Options take the rate, the channels and the tags of the settings that they come from, and keep the
limits. So the tags of a stream can always be handed to the library, whose texts end at a NUL.
-/

set_option autoImplicit false

namespace VorbisTrack

namespace EncodingOptions

/-- What options have in common with the settings that they come from. -/
theorem of_resolve {settings : Settings} {options : EncodingOptions}
    (resolved : resolve settings = .ok options) :
    options.rate = settings.rate ∧ options.channels = settings.channels ∧
      options.comments = settings.comments ∧ options.check = .ok () := by
  -- Settings are resolved in steps, and the check of the options is the last.
  simp only [resolve, bind, Except.bind] at resolved
  split at resolved
  · cases resolved
  · split at resolved
    · cases resolved
    · split at resolved
      · cases resolved
      · next checked =>
        cases resolved
        exact ⟨rfl, rfl, rfl, checked⟩

/-- Options that have been checked have a rate and channels, and each of their tags can stand in a
comment header. -/
theorem of_check {options : EncodingOptions} (checked : options.check = .ok ()) :
    0 < options.rate.toNat ∧ 0 < options.channels.toNat ∧
      ∀ comment ∈ options.comments, isComment comment = true := by
  unfold check at checked
  by_cases rate : options.rate = 0 ∨ highestRate < options.rate
  · rw [if_pos rate] at checked
    cases checked
  · rw [if_neg rate] at checked
    by_cases channels : options.channels = 0 ∨ highestChannels < options.channels
    · rw [if_pos channels] at checked
      cases checked
    · rw [if_neg channels] at checked
      split at checked
      · cases checked
      · split at checked
        · cases checked
        · split at checked
          · cases checked
          · next none =>
            refine ⟨?_, ?_, ?_⟩
            · exact Nat.pos_of_ne_zero fun zero => rate (.inl (UInt32.toNat_inj.mp zero))
            · exact Nat.pos_of_ne_zero fun zero => channels (.inl (UInt16.toNat_inj.mp zero))
            · intro comment member
              simpa using List.find?_eq_none.mp none comment member

/-- A tag that can stand in a comment header has no NUL in it. -/
theorem not_contains_of_isComment {comment : String × String} (h : isComment comment = true) :
    comment.1.toList.contains '\x00' = false ∧ comment.2.toList.contains '\x00' = false := by
  simp only [isComment, Bool.and_eq_true, Bool.not_eq_true'] at h
  exact ⟨h.1.2, h.2⟩

end EncodingOptions

/-- Tags without a NUL can be handed over. -/
theorem Session.nulFault?_eq_none {comments : List (String × String)}
    (clean : ∀ comment ∈ comments,
      comment.1.toList.contains '\x00' = false ∧ comment.2.toList.contains '\x00' = false) :
    nulFault? comments = none := by
  induction comments with
  | nil => rfl
  | cons comment rest ih =>
    obtain ⟨key, value⟩ := clean comment (List.mem_cons_self ..)
    unfold nulFault?
    rw [if_neg (by rw [key]; exact Bool.false_ne_true),
      if_neg (by rw [value]; exact Bool.false_ne_true)]
    exact ih fun other member => clean other (List.mem_cons_of_mem _ member)

/-- The tags of a stream with checked options can be handed over. -/
theorem Encoder.nulFault?_tags {options : EncodingOptions} (checked : options.check = .ok ()) :
    Session.nulFault? (tags options) = none := by
  apply Session.nulFault?_eq_none
  intro comment member
  rcases List.mem_cons.mp member with rfl | member
  · decide
  · exact EncodingOptions.not_contains_of_isComment
      ((EncodingOptions.of_check checked).2.2 comment member)

end VorbisTrack
