import VorbisTrack.Digest
import VorbisTrack.Library

/-!
# Call traces

A trace writes one line for every call of the library: its name, its arguments, and the code it
answered. Floating-point arguments appear as the hexadecimal digits of their words, sample planes
as digests.
-/

set_option autoImplicit false

namespace VorbisTrack

inductive Routine
  | infoInit | setupVbr | setupManaged | control | setupInit | analysisInit | blockInit
  | commentInit | commentAddTag | analysisHeaderOut | commentClear
  | analysisBuffer | analysisWrote | analysisBlockOut | analysis | bitrateAddBlock
  | bitrateFlushPacket | blockClear | dspClear | infoClear
  deriving DecidableEq

namespace Routine

def name : Routine → String
  | infoInit => "vorbis_info_init"
  | setupVbr => "vorbis_encode_setup_vbr"
  | setupManaged => "vorbis_encode_setup_managed"
  | control => "vorbis_encode_ctl"
  | setupInit => "vorbis_encode_setup_init"
  | analysisInit => "vorbis_analysis_init"
  | blockInit => "vorbis_block_init"
  | commentInit => "vorbis_comment_init"
  | commentAddTag => "vorbis_comment_add_tag"
  | analysisHeaderOut => "vorbis_analysis_headerout"
  | commentClear => "vorbis_comment_clear"
  | analysisBuffer => "vorbis_analysis_buffer"
  | analysisWrote => "vorbis_analysis_wrote"
  | analysisBlockOut => "vorbis_analysis_blockout"
  | analysis => "vorbis_analysis"
  | bitrateAddBlock => "vorbis_bitrate_addblock"
  | bitrateFlushPacket => "vorbis_bitrate_flushpacket"
  | blockClear => "vorbis_block_clear"
  | dspClear => "vorbis_dsp_clear"
  | infoClear => "vorbis_info_clear"

end Routine

def SetupStep.routine : SetupStep → Routine
  | .vbr .. => .setupVbr
  | .managed .. => .setupManaged
  | .rateManagementOff | .lowpass _ | .blockBias _ => .control
  | .finish => .setupInit

/-- How a step of the setup is named in a failure. -/
def SetupStep.name : SetupStep → String
  | .rateManagementOff => "vorbis_encode_ctl(RATEMANAGE2_SET)"
  | .lowpass _ => "vorbis_encode_ctl(LOWPASS_SET)"
  | .blockBias _ => "vorbis_encode_ctl(IBLOCK_SET)"
  | step => step.routine.name

def Call.routine : Call → Routine
  | .infoInit => .infoInit
  | .setup step => step.routine
  | .analysisInit => .analysisInit
  | .blockInit => .blockInit
  | .commentInit => .commentInit
  | .commentAdd .. => .commentAddTag
  | .headerOut => .analysisHeaderOut
  | .commentClear => .commentClear
  | .buffer _ => .analysisBuffer
  | .wrote .. => .analysisWrote
  | .blockOut => .analysisBlockOut
  | .analysis => .analysis
  | .addBlock => .bitrateAddBlock
  | .flushPacket => .bitrateFlushPacket
  | .blockClear => .blockClear
  | .dspClear => .dspClear
  | .infoClear => .infoClear

def SetupStep.arguments : SetupStep → List String
  | .vbr channels rate quality =>
    [toString channels.toNat, toString rate.toNat, hexDigits 8 quality.toBits.toNat]
  | .managed channels rate max nominal min =>
    [toString channels.toNat, toString rate.toNat, toString max.toInt, toString nominal.toInt,
      toString min.toInt]
  | .rateManagementOff => ["0x15", "null"]
  | .lowpass frequency => ["0x21", hexDigits 16 frequency.toBits.toNat]
  | .blockBias bias => ["0x31", hexDigits 16 bias.toBits.toNat]
  | .finish => []

def Call.arguments : Call → List String
  | .setup step => step.arguments
  | .commentAdd key value => [key ++ "=" ++ value]
  | .buffer count => [toString count]
  | .wrote count planes =>
    toString count :: planes.map fun plane => fnvText (Frame.sampleBytes plane)
  | .analysis => ["null"]
  | _ => []

/-- The code that a call answered, or the missing memory. -/
def Event.outcome : Event → Option String
  | ⟨.setup _, code⟩ | ⟨.analysisInit, code⟩ | ⟨.blockInit, code⟩ | ⟨.wrote .., code⟩
  | ⟨.blockOut, code⟩ | ⟨.analysis, code⟩ | ⟨.addBlock, code⟩ => some (toString code.toInt)
  | ⟨.headerOut, code, _⟩ => some (toString code.toInt)
  | ⟨.flushPacket, code, _⟩ => some (toString code.toInt)
  | ⟨.buffer _, none⟩ => some "null"
  | _ => none

def Event.line (event : Event) : String :=
  let words := event.call.routine.name :: event.call.arguments
  let words := match event.outcome with
    | some outcome => words ++ ["=", outcome]
    | none => words
  " ".intercalate words

end VorbisTrack
