import VorbisTrack.Numeric.Numeral
import VorbisTrack.Numeric.Shortest
import VorbisTrack.Rational
import VorbisTrack.SampleFormat
import VorbisTrack.Storage.FileFault
import VorbisTrack.Wav.FormatTag

/-!
# Failures

Every way in which an operation can fail is a constructor of `Failure` that holds what went wrong.
`Failure.kind` sorts the causes, and `Failure.message` is the only place where they are put into
words.
-/

set_option autoImplicit false

namespace VorbisTrack

inductive FailureKind
  | io | format | codec | init | invalidInput | unsupported | endOfStream | tryAgain
  | bufferTooSmall | invalidState | config | bug | unknown
  deriving DecidableEq

inductive Failure
  /-- A failure that a caller reports in words of its own. -/
  | reported (kind : FailureKind) (text : String)
  -- Flow of packets
  | endOfStream
  | tryAgain
  | bufferTooSmall (need room : Nat)
  -- The encoding library
  | library (call : String) (code : Int32)
  | noAnalysisBuffer
  | samplesAfterEnd
  | tooManySamples (count : Nat)
  | nulInCommentKey (key : String)
  | nulInCommentValue (value : String)
  -- Header packets
  | emptyExtradata
  | headerCount (found : Nat)
  | truncatedLacing
  | headerOverrun (identification comment available : Nat)
  | malformedHeader (name : String)
  -- Encoder settings
  | noEncoder (codec : String)
  | invalidTimeBase (base : Rational)
  | unknownOption (name : String)
  | invalidOption (name value : String) (fault : NumeralFault)
  | rateTooLarge (what : String) (rate : UInt64)
  | sampleRateOutOfRange (rate highest : UInt32)
  | channelsOutOfRange (channels highest : UInt16)
  | qualityOutOfRange (quality lowest highest : Float32)
  | limitsCrossed (min max : Int64)
  | nominalNotPositive
  | blockBiasOutOfRange (bias lowest highest : Float)
  | invalidComment (key value : String)
  -- Frames
  | missingPlanes (planes : Nat) (format : SampleFormat) (channels : UInt16) (needed : Nat)
  | shortPlane (index bytes samples needed : Nat)
  | unknownSampleFormat
  | rateMismatch (expected found : UInt32)
  | channelMismatch (expected found : UInt16)
  | unsupportedSamples (format : SampleFormat)
  | alreadyFlushed
  -- WAVE files
  | wavUnopened (fault : FileFault)
  | riffHeaderUnread (fault : FileFault)
  | notRiff
  | notWave
  | formatChunkUnread (fault : FileFault)
  | formatChunkTooSmall
  | extensibleChunkTooSmall
  | dataBeforeFormat
  | noDataChunk
  | noChannels
  | noSampleRate
  | invalidSampleBits (bits : UInt16)
  | blockAlignOverflow (channels bits : UInt16)
  | blockAlignMismatch (expected found : UInt16)
  | unsupportedWav (tag : Wav.FormatTag) (bits : UInt16)
  | notOpened
  | noHeader
  | audioUnread (fault : FileFault)
  | seekOutOfRange (target : Int64) (total : Nat)
  | unevenPacket (bytes blockAlign : Nat)
  -- Matroska files
  | noMuxer (format : String)
  | fileNotCreated (fault : FileFault)
  | noOutput
  | streamsAfterHeader
  | notVorbisAudio (media : MediaType) (codec : String)
  | duplicateStream (index : Nat)
  | headerTwice
  | noStreams
  | unnumberedStream
  | noAudioInfo
  | noExtradata
  | headerNotWritten
  | unknownStream (index : Nat)
  | streamNotFound

namespace Failure

def faultCode : Int32 := -129

def unsupportedCode : Int32 := -130

def invalidCode : Int32 := -131

def kind : Failure → FailureKind
  | reported kind _ => kind
  | endOfStream => .endOfStream
  | tryAgain => .tryAgain
  | bufferTooSmall .. => .bufferTooSmall
  | library _ code =>
    if code = faultCode then .bug
    else if code = invalidCode ∨ code = unsupportedCode then .invalidInput
    else .unknown
  | noAnalysisBuffer => .bug
  | samplesAfterEnd | alreadyFlushed | notOpened | noHeader | noOutput | streamsAfterHeader
  | headerTwice | noStreams | headerNotWritten => .invalidState
  | tooManySamples _ | nulInCommentKey _ | nulInCommentValue _ | rateTooLarge ..
  | sampleRateOutOfRange .. | channelsOutOfRange .. | qualityOutOfRange .. | limitsCrossed ..
  | nominalNotPositive | blockBiasOutOfRange .. | invalidComment .. | missingPlanes ..
  | shortPlane .. | seekOutOfRange .. | duplicateStream _ => .invalidInput
  | noEncoder _ | unknownSampleFormat | unsupportedSamples _ | unsupportedWav .. | noMuxer _
  | notVorbisAudio .. => .unsupported
  | invalidTimeBase _ | unknownOption _ | invalidOption .. => .config
  | rateMismatch .. | channelMismatch .. => .codec
  | emptyExtradata | headerCount _ | truncatedLacing | headerOverrun .. | malformedHeader _
  | wavUnopened _ | riffHeaderUnread _ | notRiff | notWave | formatChunkUnread _
  | formatChunkTooSmall | extensibleChunkTooSmall | dataBeforeFormat | noDataChunk | noChannels
  | noSampleRate | invalidSampleBits _ | blockAlignOverflow .. | blockAlignMismatch ..
  | audioUnread _ | unevenPacket .. | fileNotCreated _ | unnumberedStream | noAudioInfo
  | noExtradata | unknownStream _ | streamNotFound => .format

/-- What went wrong, without the heading of its sort. -/
def detail : Failure → String
  | reported _ text => text
  | endOfStream | tryAgain => ""
  | bufferTooSmall need room => s!"need {need}, have {room}"
  | library call code =>
    if code = faultCode then s!"{call} reported an internal fault"
    else if code = invalidCode then s!"{call}: invalid argument"
    else if code = unsupportedCode then s!"{call}: unsupported encoder setup"
    else s!"{call} failed with code {code.toInt}"
  | noAnalysisBuffer => "vorbis_analysis_buffer returned no buffer"
  | samplesAfterEnd => "Samples written after end of stream"
  | tooManySamples count => s!"Too many samples: {count}"
  | nulInCommentKey key => s!"Comment key contains NUL: {key}"
  | nulInCommentValue value => s!"Comment value contains NUL: {value}"
  | emptyExtradata => "Empty Vorbis extradata"
  | headerCount found => s!"Vorbis extradata must hold 3 packets, found {found}"
  | truncatedLacing => "Truncated Xiph lacing in extradata"
  | headerOverrun identification comment available =>
    s!"Vorbis header sizes {identification} + {comment} overrun {available} bytes of extradata"
  | malformedHeader name => s!"Malformed Vorbis {name} header"
  | noEncoder codec => s!"No encoder available for codec: {codec}"
  | invalidTimeBase base => s!"Invalid time base: {base.text}"
  | unknownOption name => s!"Unknown option for libvorbis: {name}"
  | invalidOption name value fault => s!"Invalid value '{value}' for {name}: {fault.message}"
  | rateTooLarge what rate => s!"{what} too large: {rate.toNat}"
  | sampleRateOutOfRange rate highest =>
    s!"Invalid Vorbis sample rate: {rate.toNat}. Valid range: 1-{highest.toNat} Hz"
  | channelsOutOfRange channels highest =>
    s!"Invalid Vorbis channel count: {channels.toNat}. Valid range: 1-{highest.toNat}"
  | qualityOutOfRange quality lowest highest =>
    s!"Invalid Vorbis quality: {float32Text quality}. Valid range: {float32Text lowest} to " ++
      float32Text highest
  | limitsCrossed min max =>
    s!"Minimum bitrate {min.toInt} exceeds maximum bitrate {max.toInt}"
  | nominalNotPositive => "Nominal bitrate must be positive"
  | blockBiasOutOfRange bias lowest highest =>
    s!"Invalid impulse block bias: {floatText bias}. Valid range: {floatText lowest} to " ++
      floatText highest
  | invalidComment key value => s!"Invalid Vorbis comment: {key}={value}"
  | missingPlanes planes format channels needed =>
    s!"Audio frame has {planes} planes, {format.name} {channels.toNat} needs {needed}"
  | shortPlane index bytes samples needed =>
    s!"Audio plane {index} holds {bytes} bytes, {samples} samples need {needed}"
  | unknownSampleFormat => "Cannot convert unknown sample format"
  | rateMismatch expected found =>
    s!"Sample rate mismatch: encoder expects {expected.toNat}, got {found.toNat}"
  | channelMismatch expected found =>
    s!"Channel count mismatch: encoder expects {expected.toNat}, got {found.toNat}"
  | unsupportedSamples format =>
    s!"Unsupported sample format for Vorbis encoding: {format.name}"
  | alreadyFlushed => "Vorbis encoder already flushed"
  | wavUnopened fault => s!"Failed to open WAV file: {fault.message}"
  | riffHeaderUnread fault => s!"Failed to read RIFF header: {fault.message}"
  | notRiff => "Not a valid RIFF file"
  | notWave => "Not a valid WAVE file"
  | formatChunkUnread fault => s!"Failed to read fmt chunk: {fault.message}"
  | formatChunkTooSmall => "WAV format chunk too small"
  | extensibleChunkTooSmall => "WAV extensible format chunk too small"
  | dataBeforeFormat => "data chunk before fmt chunk"
  | noDataChunk => "data chunk not found"
  | noChannels => "Invalid channel count: 0"
  | noSampleRate => "Invalid sample rate: 0"
  | invalidSampleBits bits => s!"Invalid bits per sample: {bits.toNat}"
  | blockAlignOverflow channels bits =>
    s!"Block align overflow: {channels.toNat} channels of {bits.toNat} bits"
  | blockAlignMismatch expected found =>
    s!"Block align mismatch: expected {expected.toNat}, got {found.toNat}"
  | unsupportedWav tag bits => s!"Unsupported WAV format: {tag.name} at {bits.toNat} bits"
  | notOpened => "Demuxer not opened"
  | noHeader => "No header parsed"
  | audioUnread fault => s!"Failed to read audio data: {fault.message}"
  | seekOutOfRange target total => s!"Seek timestamp {target.toInt} out of range (0-{total})"
  | unevenPacket bytes blockAlign =>
    s!"PCM packet of {bytes} bytes is not a multiple of block align {blockAlign}"
  | noMuxer format => s!"No muxer for format: {format}"
  | fileNotCreated fault => s!"Failed to create WebM file: {fault.message}"
  | noOutput => "WebM writer not initialized"
  | streamsAfterHeader => "Cannot add streams after the header"
  | notVorbisAudio media codec =>
    s!"WebM muxer only writes Vorbis audio, got {media.name} {codec}"
  | duplicateStream index => s!"Duplicate stream index {index}"
  | headerTwice => "Header already written"
  | noStreams => "No streams added to WebM muxer"
  | unnumberedStream => "Stream without a track number"
  | noAudioInfo => "Audio stream missing audio info"
  | noExtradata => "Vorbis track requires header extradata"
  | headerNotWritten => "WebM header not written"
  | unknownStream index => s!"Unknown stream {index}"
  | streamNotFound => "Stream not found"

def message (failure : Failure) : String :=
  match failure.kind with
  | .io => "IO error: " ++ failure.detail
  | .format => "Format error: " ++ failure.detail
  | .codec => "Codec error: " ++ failure.detail
  | .init => "Initialization error: " ++ failure.detail
  | .invalidInput => "Invalid input: " ++ failure.detail
  | .unsupported => "Unsupported: " ++ failure.detail
  | .endOfStream => "End of stream"
  | .tryAgain => "Try again"
  | .bufferTooSmall => "Buffer too small: " ++ failure.detail
  | .invalidState => "Invalid state: " ++ failure.detail
  | .config => "Configuration error: " ++ failure.detail
  | .bug => "Internal bug: " ++ failure.detail
  | .unknown => "Unknown error: " ++ failure.detail

/-- Whether the caller should come back after feeding more input. -/
def isTryAgain (failure : Failure) : Bool :=
  failure.kind = .tryAgain

end Failure

end VorbisTrack
