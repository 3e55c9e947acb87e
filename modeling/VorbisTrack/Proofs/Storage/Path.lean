import VorbisTrack.Storage.FileTree

/-!
# Names in paths

The pieces of a text between its slashes hold no slash, and a slash between two texts keeps their
pieces apart (`Path.pieces_append`). So the name that a path ends with holds none either, and a path
that is joined from a directory and a name ends with that name. Wherever such a path leads, the name
is the last of the location (`FileTree.exists_of_locate`), whatever the tree: paths for different
names never lead to the same file.
-/

set_option autoImplicit false

namespace VorbisTrack

namespace Path

/-! ## Pieces -/

theorem pieces_ne_nil (cs : List Char) : pieces cs ≠ [] := by
  cases cs with
  | nil => exact List.cons_ne_nil _ _
  | cons c cs =>
    unfold pieces
    split
    · exact List.cons_ne_nil _ _
    · split <;> exact List.cons_ne_nil _ _

theorem pieces_slash (cs : List Char) : pieces ('/' :: cs) = [] :: pieces cs := by
  rw [pieces]
  cases pieces_cs : pieces cs with
  | nil => exact absurd pieces_cs (pieces_ne_nil cs)
  | cons piece rest => rfl

/-- A character that is no slash belongs to the first piece. -/
theorem pieces_cons {c : Char} (other : c ≠ '/') {cs piece : List Char} {rest : List (List Char)}
    (known : pieces cs = piece :: rest) : pieces (c :: cs) = (c :: piece) :: rest := by
  rw [pieces, known]
  exact if_neg other

/-- A slash keeps the pieces before and behind it apart. -/
theorem pieces_append (before behind : List Char) :
    pieces (before ++ '/' :: behind) = pieces before ++ pieces behind := by
  induction before with
  | nil => exact pieces_slash behind
  | cons c before ih =>
    by_cases slash : c = '/'
    · subst slash
      rw [List.cons_append, pieces_slash, ih, pieces_slash]
      rfl
    · cases known : pieces before with
      | nil => exact absurd known (pieces_ne_nil before)
      | cons piece rest =>
        rw [known] at ih
        rw [pieces_cons slash known]
        exact pieces_cons slash ih

theorem pieces_of_not_mem {cs : List Char} (none : '/' ∉ cs) : pieces cs = [cs] := by
  induction cs with
  | nil => rfl
  | cons c cs ih =>
    exact pieces_cons (fun slash => none (slash ▸ List.mem_cons_self ..))
      (ih fun member => none (List.mem_cons_of_mem _ member))

theorem not_mem_of_mem_pieces {cs piece : List Char} (member : piece ∈ pieces cs) :
    '/' ∉ piece := by
  induction cs generalizing piece with
  | nil =>
    rw [List.mem_singleton.mp member]
    exact List.not_mem_nil
  | cons c cs ih =>
    by_cases slash : c = '/'
    · subst slash
      rw [pieces_slash] at member
      rcases List.mem_cons.mp member with rfl | member
      · exact List.not_mem_nil
      · exact ih member
    · cases known : pieces cs with
      | nil => exact absurd known (pieces_ne_nil cs)
      | cons first rest =>
        rw [known] at ih
        rw [pieces_cons slash known] at member
        rcases List.mem_cons.mp member with rfl | member
        · intro slashed
          rcases List.mem_cons.mp slashed with rfl | slashed
          · exact slash rfl
          · exact ih (List.mem_cons_self ..) slashed
        · exact ih (List.mem_cons_of_mem _ member)

/-! ## Names -/

/-- A text that can be the name of an entry. -/
structure IsName (name : String) : Prop where
  nonempty : name.toList ≠ []
  slashless : '/' ∉ name.toList
  /-- It is not one of the names that lead to the same directory or to the one above. -/
  proper : name.toList ≠ ['.'] ∧ name.toList ≠ ['.', '.']

theorem IsName.stepOf {name : String} (h : IsName name) : stepOf name.toList = .entry name := by
  rw [Path.stepOf, if_neg h.proper.1, if_neg h.proper.2, String.ofList_toList]

/-- A step into an entry comes from a name. -/
theorem isName_of_stepOf {text : List Char} {piece : List Char} {name : String}
    (member : piece ∈ pieces text) (some_ : piece ≠ []) (step : Path.stepOf piece = .entry name) :
    IsName name := by
  unfold Path.stepOf at step
  split at step
  · cases step
  · next other =>
    split at step
    · cases step
    · next other' =>
      cases step
      have same : (String.ofList piece).toList = piece := String.toList_ofList
      constructor
      · rwa [same]
      · rw [same]
        exact not_mem_of_mem_pieces member
      · rw [same]
        exact ⟨other, other'⟩

theorem mem_of_mem_countedSteps {p : Path} {step : PathStep} (member : step ∈ p.countedSteps) :
    step ∈ p.steps := by
  unfold countedSteps at member
  split at member
  · next first rest _ steps =>
    rw [steps]
    rcases List.mem_cons.mp member with rfl | member
    · exact List.mem_cons_self ..
    · exact List.mem_cons_of_mem _ (List.mem_filter.mp member).1
  · exact (List.mem_filter.mp member).1

/-- What a path of a text ends with is a name. -/
theorem isName_of_fileName? {text name : String} (named : (ofText text).fileName? = some name) :
    IsName name := by
  unfold fileName? at named
  split at named
  · next found =>
    cases named
    have member := mem_of_mem_countedSteps (List.mem_of_getLast? found)
    obtain ⟨piece, kept, step⟩ := List.mem_map.mp member
    obtain ⟨between, some_⟩ := List.mem_filter.mp kept
    exact isName_of_stepOf between (by simpa using some_) step
  · cases named

theorem not_mem_stemOf {c : Char} {name : String} (none : c ∉ name.toList) :
    c ∉ (stemOf name).toList := by
  unfold stemOf
  split
  · next stem extension split =>
    -- The stem is what stands before the last point.
    have before : ∀ c ∈ stem, c ∈ name.toList := by
      intro c member
      obtain ⟨⟨after, front⟩, parts, same⟩ := Option.map_eq_some_iff.mp split
      cases same
      unfold splitFirst? at parts
      split at parts
      · cases parts
      · next point rest dropped =>
        cases parts
        have later : c ∈ name.toList.reverse.dropWhile (· != '.') := by
          rw [dropped]
          exact List.mem_cons_of_mem _ (List.mem_reverse.mp member)
        exact List.mem_reverse.mp ((List.dropWhile_sublist _).mem later)
    split
    · exact none
    · rw [String.toList_ofList]
      exact fun member => none (before c member)
  · exact none

/-- The stem of a path of a text holds no slash. -/
theorem slashless_of_fileStem? {text stem : String} (found : (ofText text).fileStem? = some stem) :
    '/' ∉ stem.toList := by
  obtain ⟨name, named, rfl⟩ := Option.map_eq_some_iff.mp found
  exact not_mem_stemOf (isName_of_fileName? named).slashless

/-! ## Joining -/

/-- The text of a joined path is the name, or ends with a slash and the name. -/
theorem toList_join (directory name : String) :
    (join directory name).toList = name.toList ∨
      ∃ front, (join directory name).toList = front ++ '/' :: name.toList := by
  unfold join
  split
  · next empty =>
    left
    rw [String.toList_append, List.getLast?_eq_none_iff.mp empty, List.nil_append]
  · next slash =>
    obtain ⟨front, same⟩ := List.getLast?_eq_some_iff.mp slash
    right
    refine ⟨front, ?_⟩
    rw [String.toList_append, same, List.append_assoc]
    rfl
  · right
    refine ⟨directory.toList, ?_⟩
    rw [String.toList_append, String.toList_append, List.append_assoc]
    rfl

/-- A joined path ends with the name. -/
theorem getLast?_steps_join (directory : String) {name : String} (h : IsName name) :
    (ofText (join directory name)).steps.getLast? = some (.entry name) := by
  have kept : ((pieces name.toList).filter fun piece => !piece.isEmpty).map Path.stepOf =
      [.entry name] := by
    rw [pieces_of_not_mem h.slashless, List.filter_cons_of_pos (by simpa using h.nonempty),
      List.filter_nil, List.map_singleton, h.stepOf]
  show (((pieces (join directory name).toList).filter _).map Path.stepOf).getLast? = _
  rcases toList_join directory name with same | ⟨front, same⟩
  · rw [same, kept]
    rfl
  · rw [same, pieces_append, List.filter_append, List.map_append, kept, List.getLast?_append]
    rfl

/-- Different names are joined to different texts. -/
theorem eq_of_join_eq {directory name name' : String}
    (same : join directory name = join directory name') : name = name' := by
  unfold join at same
  split at same <;> simpa using same

end Path

namespace FileTree

/-- A path that ends with a name leads to a location of that name. -/
theorem exists_of_locate {t : FileTree} {p : Path} {name : String} {location : Location}
    (last : p.steps.getLast? = some (.entry name)) (located : t.locate p = .ok location) :
    ∃ directory, t.enclosing p = .ok directory ∧ location = directory ++ [name] := by
  unfold locate at located
  split at located
  · cases located
  · next directory reached =>
    rw [last] at located
    simp only at located
    split at located
    · cases located
    · cases located
      exact ⟨directory, reached, rfl⟩

/-- Paths that end with different names lead to different locations, even in different trees. -/
theorem ne_of_locate {t t' : FileTree} {p p' : Path} {name name' : String}
    {location location' : Location} (last : p.steps.getLast? = some (.entry name))
    (last' : p'.steps.getLast? = some (.entry name')) (apart : name ≠ name')
    (located : t.locate p = .ok location) (located' : t'.locate p' = .ok location') :
    location ≠ location' := by
  obtain ⟨directory, -, rfl⟩ := exists_of_locate last located
  obtain ⟨directory', -, rfl⟩ := exists_of_locate last' located'
  intro same
  exact apart (List.cons.inj (List.append_inj' same rfl).2).1

end FileTree

end VorbisTrack
