import VorbisTrack.Failure
import VorbisTrack.Numeric.Numeral
import VorbisTrack.Settings
import VorbisTrack.Text

/-!
# Options of the Vorbis encoder

`EncodingOptions.resolve` turns generic settings into the rate control and tuning that the
encoding library is set up with, and `EncodingOptions.check` holds the limits they have to keep.
-/

set_option autoImplicit false

namespace VorbisTrack

/-- How the library distributes bits. -/
inductive RateControl
  /-- A fixed quality, on the library's scale from -0.1 to 1. -/
  | vbr (quality : Float32)
  /-- A nominal rate in bits per second, with optional limits. -/
  | managed (nominal : Int64) (min max : Option Int64)

/-- A managed rate without limits runs on estimates, with the slow rate management turned off. -/
def RateControl.disablesRateManagement : RateControl → Bool
  | .managed _ none none => true
  | _ => false

structure EncodingOptions where
  rate : UInt32
  channels : UInt16
  rateControl : RateControl
  /-- The lowpass frequency in kilohertz. -/
  lowpass : Option Float := none
  /-- The impulse block bias; zero leaves it to the library. -/
  blockBias : Float := 0
  /-- The caller's tags. -/
  comments : List (String × String) := []

namespace EncodingOptions

/-- The quality if neither a quality nor a rate is asked for. -/
def defaultQuality : Float32 := 3

def lowestQuality : Float32 := -1

def highestQuality : Float32 := 10

def lowestBias : Float := -15

def highestBias : Float := 0

def highestRate : UInt32 := 200000

def highestChannels : UInt16 := 255

def blockBiasName : String := "iblock"

def checkQuality (quality : Float32) : Except Failure Unit :=
  if lowestQuality / 10 ≤ quality ∧ quality ≤ highestQuality / 10 then .ok ()
  else .error (.qualityOutOfRange (quality * 10) lowestQuality highestQuality)

/-- Checks the rate control: a quality within its bounds, limits in order and a positive rate. -/
def checkRateControl : RateControl → Except Failure Unit
  | .vbr quality => checkQuality quality
  | .managed nominal min max =>
    match min, max with
    | some min, some max =>
      if max < min then .error (.limitsCrossed min max)
      else if nominal ≤ 0 then .error .nominalNotPositive
      else .ok ()
    | _, _ => if nominal ≤ 0 then .error .nominalNotPositive else .ok ()

/-- Whether a tag can stand in a comment header. -/
def isComment (comment : String × String) : Bool :=
  let key := comment.1.toList
  !key.isEmpty && !key.contains '=' && !key.contains '\x00' && !comment.2.toList.contains '\x00'

/-- Checks that every option keeps its limits; the first that does not is reported. -/
def check (options : EncodingOptions) : Except Failure Unit :=
  if options.rate = 0 ∨ highestRate < options.rate then
    .error (.sampleRateOutOfRange options.rate highestRate)
  else if options.channels = 0 ∨ highestChannels < options.channels then
    .error (.channelsOutOfRange options.channels highestChannels)
  else
    match checkRateControl options.rateControl with
    | .error failure => .error failure
    | .ok () =>
      if ¬ (lowestBias ≤ options.blockBias ∧ options.blockBias ≤ highestBias) then
        .error (.blockBiasOutOfRange options.blockBias lowestBias highestBias)
      else
        match options.comments.find? fun c => !isComment c with
        | some (key, value) => .error (.invalidComment key value)
        | none => .ok ()

def signedRate (what : String) (rate : UInt64) : Except Failure Int64 :=
  if rate.toNat < 2 ^ 63 then .ok (Int64.ofNat rate.toNat) else .error (.rateTooLarge what rate)

/-- A limit as a signed word. A limit of zero is none. -/
def limit (what : String) : Option UInt64 → Except Failure (Option Int64)
  | none => .ok none
  | some rate => if rate = 0 then .ok none else (signedRate what rate).map some

/-- The rate control that settings ask for. A quality wins over a rate. -/
def resolveRate (s : Settings) : Except Failure RateControl :=
  match s.quality with
  | some quality => .ok (.vbr (quality / 10))
  | none =>
    if s.bitRate = 0 then .ok (.vbr (defaultQuality / 10))
    else do
      let nominal ← signedRate "bitrate" s.bitRate
      let min ← limit "minimum bitrate" s.minRate
      let max ← limit "maximum bitrate" s.maxRate
      return .managed nominal min max

/-- The lowpass frequency in kilohertz. A frequency of zero is none. -/
def resolveLowpass (cutoff : Option UInt32) : Option Float :=
  cutoff.bind fun hertz => if hertz = 0 then none else some (hertz.toFloat / 1000)

/-- The impulse block bias among private options. A value may stand between white space; an option
of another name is refused. -/
def resolveBias : List (String × String) → Float → Except Failure Float
  | [], bias => .ok bias
  | (name, value) :: rest, _ =>
    if name = blockBiasName then
      match readFloat (trim value.toList) with
      | .ok bias => resolveBias rest bias
      | .error fault => .error (.invalidOption name value fault)
    else .error (.unknownOption name)

def resolve (s : Settings) : Except Failure EncodingOptions := do
  let rateControl ← resolveRate s
  let blockBias ← resolveBias s.options 0
  let options : EncodingOptions :=
    { rate := s.rate
      channels := s.channels
      rateControl
      lowpass := resolveLowpass s.cutoff
      blockBias
      comments := s.comments }
  options.check
  return options

end EncodingOptions

end VorbisTrack
