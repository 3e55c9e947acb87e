import VorbisTrack.Storage.FileFault
import VorbisTrack.Text

/-!
# Paths

A path is a text whose steps are separated by slashes. Empty steps do not count. Steps to the same
directory lead nowhere; when a path is taken apart, only one that a relative path starts with
counts.
-/

set_option autoImplicit false

namespace VorbisTrack

inductive PathStep
  /-- To the same directory. -/
  | here
  /-- To the directory above. -/
  | up
  /-- To an entry of the directory. -/
  | entry (name : String)
  deriving DecidableEq

structure Path where
  /-- The path starts at the root. -/
  isAbsolute : Bool
  steps : List PathStep
  /-- A slash follows the last step, so it has to be a directory. -/
  endsInSlash : Bool
  /-- Why the system takes no such path, whatever there is. -/
  refusal : Option FileFault := none
  deriving DecidableEq

namespace Path

def pieces : List Char → List (List Char)
  | [] => [[]]
  | c :: cs =>
    match pieces cs with
    | [] => [[c]]
    | piece :: rest => if c = '/' then [] :: piece :: rest else (c :: piece) :: rest

def stepOf (piece : List Char) : PathStep :=
  if piece = ['.'] then .here
  else if piece = ['.', '.'] then .up
  else .entry (String.ofList piece)

def sizeLimit : Nat := 4096

/-- Why the system takes no path of this text, if it takes none. -/
def refusalOf (text : String) : Option FileFault :=
  if text.toList.contains '\x00' then some .endInside
  else if sizeLimit ≤ text.utf8ByteSize then some .nameTooLong
  else none

def ofText (text : String) : Path :=
  let cs := text.toList
  { isAbsolute := cs.head? = some '/'
    steps := ((pieces cs).filter fun piece => !piece.isEmpty).map stepOf
    endsInSlash := cs.getLast? = some '/'
    refusal := refusalOf text }

/-- The steps that count. -/
def countedSteps (p : Path) : List PathStep :=
  match p.isAbsolute, p.steps with
  | false, first :: rest => first :: rest.filter (· ≠ .here)
  | _, steps => steps.filter (· ≠ .here)

def fileName? (p : Path) : Option String :=
  match p.countedSteps.getLast? with
  | some (.entry name) => some name
  | _ => none

def stemOf (name : String) : String :=
  match splitLast? '.' name.toList with
  | some (stem, _) => if stem.isEmpty then name else String.ofList stem
  | none => name

def fileStem? (p : Path) : Option String :=
  p.fileName?.map stemOf

def parent? (p : Path) : Option Path :=
  if p.countedSteps.isEmpty then none
  else some { p with steps := p.countedSteps.dropLast, endsInSlash := false }

/-- No more steps count than there are. -/
theorem length_countedSteps_le (p : Path) : p.countedSteps.length ≤ p.steps.length := by
  unfold countedSteps
  split
  · next first rest _ steps =>
    rw [steps]
    exact Nat.succ_le_succ (List.length_filter_le ..)
  · exact List.length_filter_le ..

/-- The path without its last step has fewer steps. -/
theorem length_parent? {p q : Path} (h : p.parent? = some q) :
    q.steps.length < p.steps.length := by
  simp only [parent?, Option.ite_none_left_eq_some, Option.some.injEq] at h
  obtain ⟨nonempty, rfl⟩ := h
  have := p.length_countedSteps_le
  have := List.length_pos_iff.2 (by simpa using nonempty : p.countedSteps ≠ [])
  simp only [List.length_dropLast]
  omega

/-- The text of the path to an entry of a directory. -/
def join (directory name : String) : String :=
  match directory.toList.getLast? with
  | none | some '/' => directory ++ name
  | _ => directory ++ "/" ++ name

end Path

end VorbisTrack
