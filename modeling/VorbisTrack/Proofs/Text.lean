import VorbisTrack.Text

/-!
# Cutting a text at its first separator

The two parts are those on either side of a separator, and the first of them has none
(`splitFirst?_append`, `of_splitFirst?`). Only a text without the separator cannot be cut.
-/

set_option autoImplicit false

namespace VorbisTrack

variable {separator c : Char} {cs before after : List Char}

/-- A text is cut at its first character or behind it. -/
theorem splitFirst?_cons (separator c : Char) (cs : List Char) :
    splitFirst? separator (c :: cs) =
      if c = separator then some ([], cs)
      else (splitFirst? separator cs).map fun parts => (c :: parts.1, parts.2) := by
  unfold splitFirst?
  by_cases here : c = separator
  · subst here
    simp
  · have passed : (c != separator) = true := bne_iff_ne.mpr here
    simp only [List.dropWhile_cons, List.takeWhile_cons, passed, if_true, if_neg here]
    split <;> rfl

theorem splitFirst?_append (unseparated : separator ∉ before) (after : List Char) :
    splitFirst? separator (before ++ separator :: after) = some (before, after) := by
  induction before with
  | nil => rw [List.nil_append, splitFirst?_cons, if_pos rfl]
  | cons c rest ih =>
    obtain ⟨other, later⟩ := not_or.mp fun member => unseparated (List.mem_cons.mpr member)
    rw [List.cons_append, splitFirst?_cons, if_neg (Ne.symm other), ih later]
    rfl

theorem of_splitFirst? (parts : splitFirst? separator cs = some (before, after)) :
    cs = before ++ separator :: after ∧ separator ∉ before := by
  induction cs generalizing before with
  | nil => cases parts
  | cons c rest ih =>
    rw [splitFirst?_cons] at parts
    split at parts
    · next here =>
      cases parts
      exact ⟨by rw [here, List.nil_append], List.not_mem_nil⟩
    · next other =>
      obtain ⟨⟨earlier, _⟩, found, same⟩ := Option.map_eq_some_iff.mp parts
      cases same
      obtain ⟨rfl, unseparated⟩ := ih found
      refine ⟨rfl, ?_⟩
      rw [List.mem_cons, not_or]
      exact ⟨Ne.symm other, unseparated⟩

theorem splitFirst?_eq_none_iff : splitFirst? separator cs = none ↔ separator ∉ cs := by
  induction cs with
  | nil => exact iff_of_true rfl List.not_mem_nil
  | cons c rest ih =>
    rw [splitFirst?_cons, List.mem_cons, not_or]
    split
    · next here => exact iff_of_false (by simp) fun absent => absent.1 here.symm
    · next other => rw [Option.map_eq_none_iff, ih, and_iff_right (Ne.symm other)]

end VorbisTrack
