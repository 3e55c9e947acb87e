import VorbisTrack.Command.Fault
import VorbisTrack.Text

/-!
# Bitrates

A bitrate is a positive numeral, with a final letter for thousands or millions of bits per second.
-/

set_option autoImplicit false

namespace VorbisTrack.Command

namespace Bitrate

/-- The numeral of a text, and the factor that its last letter stands for. -/
def splitScale (value : List Char) : List Char × Nat :=
  match value.getLast? with
  | some 'k' | some 'K' => (value.dropLast, 1000)
  | some 'm' | some 'M' => (value.dropLast, 1000000)
  | _ => (value, 1)

/-- The nearest whole number to a value that is not negative, a half going up. What is too large
gives the largest word. -/
def wholeWord : BinaryValue → UInt64
  | .finite _ significand exponent =>
    let (n, d) := scaleRatio significand 1 exponent
    .ofNat (min ((2 * n + d) / (2 * d)) (2 ^ 64 - 1))
  | .infinity _ | .nan => .ofNat (2 ^ 64 - 1)

/-- Reads a bitrate, which may stand between white space. The numeral is rounded to a
floating-point number before it is multiplied, and after that once more. -/
def read (text : String) : Except Fault UInt64 :=
  let value := trim text.toList
  let (digits, scale) := splitScale value
  match Numeral.read digits with
  | .error fault => .error (.invalidBitrate (String.ofList value) fault)
  | .ok numeral =>
    match BinaryFormat.double.decode (numeral.toWord .double) with
    | .finite false (significand + 1) exponent =>
      let product := BinaryFormat.double.ofScaled false ((significand + 1) * scale) exponent
      .ok (wholeWord (BinaryFormat.double.decode product))
    | _ => .error (.bitrateNotPositive (String.ofList value))

end Bitrate

end VorbisTrack.Command
