import VorbisTrack.Bytes
import VorbisTrack.Storage.FileFault
import VorbisTrack.Storage.Path

/-!
# File trees

A tree of files and directories as a value. Entries are kept by the names that lead to them from
the root; the root itself always is a directory. Relative paths start at the working directory.
-/

set_option autoImplicit false

namespace VorbisTrack

/-- The names that lead from the root to an entry. -/
abbrev Location := List String

inductive Node
  | file (bytes : Bytes)
  | directory
  deriving DecidableEq

structure FileTree where
  entries : List (Location × Node) := []
  workingDirectory : Location := []

namespace FileTree

def node? (t : FileTree) (location : Location) : Option Node :=
  if location.isEmpty then some .directory else t.entries.lookup location

/-- Puts an entry among others, in the place of one at the same location. -/
def insertEntry (location : Location) (node : Node) :
    List (Location × Node) → List (Location × Node)
  | [] => [(location, node)]
  | (l, n) :: rest =>
    if l = location then (location, node) :: rest else (l, n) :: insertEntry location node rest

def put (t : FileTree) (location : Location) (node : Node) : FileTree :=
  { t with entries := insertEntry location node t.entries }

/-! ## Following paths -/

def nameLimit : Nat := 255

/-- The directory that steps lead to. -/
def descend (t : FileTree) : List PathStep → Location → Except FileFault Location
  | [], directory => .ok directory
  | .here :: rest, directory => t.descend rest directory
  | .up :: rest, directory => t.descend rest directory.dropLast
  | .entry name :: rest, directory =>
    if nameLimit < name.utf8ByteSize then .error .nameTooLong
    else
      match t.node? (directory ++ [name]) with
      | none => .error .notFound
      | some (.file _) => .error .notDirectory
      | some .directory => t.descend rest (directory ++ [name])

/-- The location that a path starts from. -/
def origin (t : FileTree) (p : Path) : Location :=
  if p.isAbsolute then [] else t.workingDirectory

/-- The directory in which the last step of a path is taken. -/
def enclosing (t : FileTree) (p : Path) : Except FileFault Location :=
  match p.refusal with
  | some fault => .error fault
  | none => t.descend p.steps.dropLast (t.origin p)

/-- The location that a path leads to. All but its last step have to be directories. -/
def locate (t : FileTree) (p : Path) : Except FileFault Location :=
  match t.enclosing p with
  | .error fault => .error fault
  | .ok directory =>
    match p.steps.getLast? with
    | none => if p.isAbsolute then .ok [] else .error .notFound
    | some (.entry name) =>
      if nameLimit < name.utf8ByteSize then .error .nameTooLong else .ok (directory ++ [name])
    | some step => t.descend [step] directory

/-- The locations that steps lead through, if all of them are directories. -/
def waypoints : List PathStep → Location → List Location
  | [], location => [location]
  | .here :: rest, location => waypoints rest location
  | .up :: rest, location => location :: waypoints rest location.dropLast
  | .entry name :: rest, location => location :: waypoints rest (location ++ [name])

def read (t : FileTree) (p : Path) : Except FileFault Node :=
  match t.locate p with
  | .error fault => .error fault
  | .ok location =>
    match t.node? location with
    | none => .error .notFound
    | some (.file bytes) => if p.endsInSlash then .error .notDirectory else .ok (.file bytes)
    | some .directory => .ok .directory

def isDirectory (t : FileTree) (p : Path) : Bool :=
  match t.read p with
  | .ok .directory => true
  | _ => false

/-! ## Making files and directories -/

/-- Makes an empty file, or empties the one that is there. What a slash follows would be a
directory, whether it is there or not. -/
def create (t : FileTree) (p : Path) : Except FileFault (Location × FileTree) :=
  match t.enclosing p with
  | .error fault => .error fault
  | .ok _ =>
    if p.endsInSlash then .error .isDirectory
    else
      match t.locate p with
      | .error fault => .error fault
      | .ok location =>
        match t.node? location with
        | some .directory => .error .isDirectory
        | _ => .ok (location, t.put location (.file []))

def makeDirectory (t : FileTree) (p : Path) : Except FileFault FileTree :=
  match t.locate p with
  | .error fault => .error fault
  | .ok location =>
    match t.node? location with
    | some _ => .error .exists
    | none => .ok (t.put location .directory)

/-- Makes one directory, or finds that it is there. -/
def ensureDirectory (t : FileTree) (p : Path) : Except FileFault FileTree :=
  match t.makeDirectory p with
  | .ok t => .ok t
  | .error fault => if t.isDirectory p then .ok t else .error fault

/-- Makes a directory together with the missing ones above it. -/
def ensureDirectories (t : FileTree) (p : Path) : Except FileFault FileTree :=
  if p.steps = [] ∧ ¬ p.isAbsolute then .ok t
  else
    match t.makeDirectory p with
    | .ok t => .ok t
    | .error .notFound =>
      match _above : p.parent? with
      | none => .error .noWholeTree
      | some above =>
        match t.ensureDirectories above with
        | .error fault => .error fault
        | .ok t => t.ensureDirectory p
    | .error fault => if t.isDirectory p then .ok t else .error fault
termination_by p.steps.length
decreasing_by exact Path.length_parent? _above

/-! ## Writing -/

/-- The bytes of a file after a write at an offset. A gap before it is filled with zeros. -/
def patch (content : Bytes) (offset : Nat) (bytes : Bytes) : Bytes :=
  content.take offset ++ List.replicate (offset - content.length) 0 ++ bytes
    ++ content.drop (offset + bytes.length)

/-- Writes into a file. A write of no bytes does nothing. -/
def writeAt (t : FileTree) (location : Location) (offset : Nat) (bytes : Bytes) : FileTree :=
  match t.node? location with
  | some (.file content) =>
    if bytes.isEmpty then t else t.put location (.file (patch content offset bytes))
  | _ => t

/-- The names from the working directory to every file below it, with the files' bytes. -/
def files (t : FileTree) : List (Location × Bytes) :=
  t.entries.filterMap fun (location, node) =>
    match node with
    | .file bytes =>
      if t.workingDirectory.isPrefixOf location then
        some (location.drop t.workingDirectory.length, bytes)
      else none
    | .directory => none

end FileTree

end VorbisTrack
