import VorbisTrack.Numeric.Numeral

/-!
# Options of the command line
-/

set_option autoImplicit false

namespace VorbisTrack.Command

inductive OptionName
  | help
  | version
  | verbose
  | debug
  | threads
  | input
  | output
  | json
  | quality
  | bitrate
  | minRate
  | maxRate
  | cutoff
  | blockBias
  | comment
  deriving DecidableEq

/-- A natural number below a bound, behind an optional plus sign. -/
def readCount (bound : Nat) (text : String) : Option Nat :=
  let digits := match text.toList with
    | '+' :: cs => cs
    | cs => cs
  let value := Numeral.digitsValue digits
  if digits.isEmpty ∨ ¬ digits.all Char.isDigit ∨ bound ≤ value then none else some value

/-- A frequency in hertz, behind an optional sign: zero may be negative. -/
def readCutoff (text : String) : Option UInt32 :=
  let (negative, digits) := Numeral.splitSign text.toList
  let value := Numeral.digitsValue digits
  if digits.isEmpty ∨ ¬ digits.all Char.isDigit ∨ 2 ^ 32 ≤ value ∨ (negative ∧ value ≠ 0) then none
  else some (.ofNat value)

namespace OptionName

def long : OptionName → String
  | help => "help"
  | version => "version"
  | verbose => "verbose"
  | debug => "debug"
  | threads => "threads"
  | input => "input"
  | output => "output"
  | json => "json"
  | quality => "quality"
  | bitrate => "bitrate"
  | minRate => "minrate"
  | maxRate => "maxrate"
  | cutoff => "cutoff"
  | blockBias => "iblock"
  | comment => "comment"

def short? : OptionName → Option Char
  | help => some 'h'
  | version => some 'V'
  | verbose => some 'v'
  | debug => some 'd'
  | threads => some 't'
  | input => some 'i'
  | output => some 'o'
  | quality => some 'q'
  | bitrate => some 'b'
  | comment => some 'c'
  | json | minRate | maxRate | cutoff | blockBias => none

def about : OptionName → String
  | help => "Print help"
  | version => "Print version"
  | verbose => "Enable verbose output"
  | debug => "Enable debug output"
  | threads => "Number of threads to use"
  | input => "Input WAV file"
  | output => "Output .webm/.mka file, or a directory"
  | json => "Output in JSON format"
  | quality => "VBR quality (-1 to 10)"
  | bitrate => "Average bitrate (e.g. 128k, 192000)"
  | minRate => "Minimum bitrate for managed encoding"
  | maxRate => "Maximum bitrate for managed encoding"
  | cutoff => "Lowpass cutoff in Hz"
  | blockBias => "Impulse block bias (-15 to 0)"
  | comment => "Metadata tag as KEY=VALUE (repeatable)"

def takesValue : OptionName → Bool
  | help | version | verbose | debug | json => false
  | threads | input | output | quality | bitrate | minRate | maxRate | cutoff | blockBias
  | comment => true

/-- The value may be a negative number that stands by itself. -/
def takesNegative : OptionName → Bool
  | quality | blockBias => true
  | _ => false

/-- Whether a value has the form that the option asks for. A path must not be empty. -/
def accepts (option : OptionName) (value : String) : Bool :=
  match option with
  | threads => (readCount (2 ^ 64) value).isSome
  | cutoff => (readCutoff value).isSome
  | quality => (readFloat32 value.toList).toOption.isSome
  | blockBias => (readFloat value.toList).toOption.isSome
  | input | output => !value.isEmpty
  | _ => true

end OptionName

end VorbisTrack.Command
