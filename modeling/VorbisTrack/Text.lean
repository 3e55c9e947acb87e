/-!
# Text

Characters are compared and cut by Unicode's rules here, as far as the program needs them: white
space at the ends of a value, the first or last separator of a text, and the case of an extension.
-/

set_option autoImplicit false

namespace VorbisTrack

/-- Unicode's `White_Space` property. -/
def isBlank (c : Char) : Bool :=
  let n := c.toNat
  (9 ≤ n && n ≤ 13) || n == 0x20 || n == 0x85 || n == 0xA0 || n == 0x1680
    || (0x2000 ≤ n && n ≤ 0x200A) || n == 0x2028 || n == 0x2029 || n == 0x202F || n == 0x205F
    || n == 0x3000

def trim (cs : List Char) : List Char :=
  ((cs.dropWhile isBlank).reverse.dropWhile isBlank).reverse

/-- The parts before and after the first occurrence of a separator. -/
def splitFirst? (separator : Char) (cs : List Char) : Option (List Char × List Char) :=
  match cs.dropWhile (· != separator) with
  | [] => none
  | _ :: rest => some (cs.takeWhile (· != separator), rest)

/-- The parts before and after the last occurrence of a separator. -/
def splitLast? (separator : Char) (cs : List Char) : Option (List Char × List Char) :=
  (splitFirst? separator cs.reverse).map fun (after, before) => (before.reverse, after.reverse)

/-- The lower-case form of a character, where that form is an ASCII letter: the capitals A to Z
and the Kelvin sign. Every other character is left alone, so texts compared with ASCII words
compare as their full lower-case forms would. -/
def foldCase (c : Char) : Char :=
  if c.toNat = 0x212A then 'k' else c.toLower

end VorbisTrack
