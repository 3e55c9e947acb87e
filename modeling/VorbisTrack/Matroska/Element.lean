import VorbisTrack.Bytes
import VorbisTrack.Numeric.Binary

/-!
# Elements

A Matroska file is made of elements: an identifier, the size of the body, and the body, which is
a value or a row of further elements.

Sizes are integers of variable width. A width of `w` bytes leaves `7 * w` bits for the value and
marks itself by the bit above them.
-/

set_option autoImplicit false

namespace VorbisTrack.Matroska

/-- A value behind the mark of its width. -/
def markedInteger (width value : Nat) : Bytes :=
  Bytes.bigEndian width (2 ^ (7 * width) + value)

/-- Bytes that a size takes: the fewest that have room for its bits. In one byte all bits set would
mean an unknown size, so a size of 127 takes two. -/
def sizeWidth (size : Nat) : Nat :=
  if size = 127 then 2 else size.log2 / 7 + 1

/-- Bytes that a positive number takes; one for zero. -/
def byteCount (value : Nat) : Nat :=
  value.log2 / 8 + 1

def element (id : Nat) (body : Bytes) : Bytes :=
  Bytes.bigEndian (byteCount id) id ++ markedInteger (sizeWidth body.length) body.length ++ body

def master (id : Nat) (children : List Bytes) : Bytes :=
  element id children.flatten

/-- An element that holds a number without sign, in the fewest bytes. -/
def unsigned (id value : Nat) : Bytes :=
  element id (Bytes.bigEndian (byteCount value) value)

def text (id : Nat) (value : String) : Bytes :=
  element id (Bytes.ofText value)

/-- An element that holds a natural number in floating point: in 32 bits if they hold it exactly,
else in 64. -/
def float (id value : Nat) : Bytes :=
  let single := BinaryFormat.single.ofRatio value 1
  let double := BinaryFormat.double.ofRatio value 1
  if BinaryFormat.double.ofValue (BinaryFormat.single.decode single) = double then
    element id (Bytes.bigEndian 4 single)
  else element id (Bytes.bigEndian 8 double)

end VorbisTrack.Matroska
