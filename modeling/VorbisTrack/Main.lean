import VorbisTrack.Command.Run
import VorbisTrack.Library.Scripted

/-!
# The program

The files that the arguments name are read in, `Command.run` does the work on them as values, and
what it has changed is written back. Packets are made by a scripted library.
-/

set_option autoImplicit false

namespace VorbisTrack

def pathText (location : Location) : String :=
  "/" ++ "/".intercalate location

def directoryCode : UInt32 := 21

def nodeAt (location : Location) : IO (Option Node) := do
  match ← (IO.FS.readBinFile (pathText location)).toBaseIO with
  | .ok bytes => return some (.file bytes.toList)
  | .error (.inappropriateType _ code _) =>
    return if code = directoryCode then some .directory else none
  | .error _ => return none

def treeAlong (paths : List String) : IO FileTree := do
  let directory := (← IO.currentDir).toString
  let start : FileTree :=
    { workingDirectory := FileTree.waypoints (Path.ofText directory).steps [] |>.getLastD [] }
  let mut tree := start
  for path in paths.map Path.ofText do
    for location in FileTree.waypoints path.steps (start.origin path) do
      if let some node ← nodeAt location then tree := tree.put location node
  return tree

def store (before after : FileTree) : IO Unit := do
  for (location, node) in after.entries do
    if before.node? location ≠ some node then
      match node with
      | .directory => IO.FS.createDirAll (pathText location)
      | .file bytes => IO.FS.writeBinFile (pathText location) ⟨bytes.toArray⟩

end VorbisTrack

open VorbisTrack in
def main (arguments : List String) : IO UInt32 := do
  let paths := match Command.Request.ofArguments arguments with
    | .ok request => request.paths
    | .error _ => []
  let files ← treeAlong paths
  let outcome := Command.run (Script.library {}) arguments files
  store files outcome.files
  IO.print outcome.output
  IO.eprint outcome.errors
  return outcome.exitCode.toUInt32
