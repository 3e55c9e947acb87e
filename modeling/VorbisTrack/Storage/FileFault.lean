/-!
# Faults of files and directories
-/

set_option autoImplicit false

namespace VorbisTrack

inductive FileFault
  | notFound
  | exists
  | notDirectory
  | isDirectory
  /-- A name in a path or the path itself has too many bytes. -/
  | nameTooLong
  /-- A path holds the character that ends it. -/
  | endInside
  /-- A read met the end of the file before it had all its bytes. -/
  | shortRead
  /-- No part of the path could be made. -/
  | noWholeTree
  deriving DecidableEq

def FileFault.message : FileFault → String
  | .notFound => "No such file or directory (os error 2)"
  | .exists => "File exists (os error 17)"
  | .notDirectory => "Not a directory (os error 20)"
  | .isDirectory => "Is a directory (os error 21)"
  | .nameTooLong => "File name too long (os error 36)"
  | .endInside => "file name contained an unexpected NUL byte"
  | .shortRead => "failed to fill whole buffer"
  | .noWholeTree => "failed to create whole tree"

end VorbisTrack
