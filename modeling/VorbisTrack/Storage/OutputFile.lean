import VorbisTrack.Storage.FileTree

/-!
# Files that are being written

Bytes for a file are held back and passed on together, so the file may lag behind what was
written. `OutputFile.position` counts the bytes that wait as well.
-/

set_option autoImplicit false

namespace VorbisTrack

/-- A file that is being written from its start on. -/
structure OutputFile where
  location : Location
  /-- Bytes that have been passed on. -/
  offset : Nat := 0
  /-- Bytes that wait. -/
  held : Bytes := []

namespace OutputFile

def capacity : Nat := 8192

def position (file : OutputFile) : Nat :=
  file.offset + file.held.length

/-- Passes on the bytes that wait. -/
def flush (file : OutputFile) (tree : FileTree) : OutputFile × FileTree :=
  ({ file with offset := file.position, held := [] },
    tree.writeAt file.location file.offset file.held)

/-- Passes on the bytes that wait if there is no room for as many more. -/
def makeRoom (file : OutputFile) (count : Nat) (tree : FileTree) : OutputFile × FileTree :=
  if capacity - file.held.length < count then file.flush tree else (file, tree)

/-- Writes bytes. They are held back while there is room for them. -/
def write (file : OutputFile) (bytes : Bytes) (tree : FileTree) : OutputFile × FileTree :=
  let ready := file.makeRoom bytes.length tree
  if bytes.length < capacity then
    ({ ready.1 with held := ready.1.held ++ bytes }, ready.2)
  else
    ({ ready.1 with offset := ready.1.offset + bytes.length },
      ready.2.writeAt ready.1.location ready.1.offset bytes)

end OutputFile

end VorbisTrack
