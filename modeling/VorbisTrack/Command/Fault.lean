import VorbisTrack.Failure

/-!
# Faults of a command

A command that fails says what it could not do and, where there is one, the cause.
-/

set_option autoImplicit false

namespace VorbisTrack.Command

inductive Fault
  | failed (failure : Failure)
  | invalidBitrate (value : String) (fault : NumeralFault)
  | bitrateNotPositive (value : String)
  | malformedComment (comment : String)
  | outputShared (inputs : Nat) (output : String)
  | directoryNotMade (output : String) (fault : FileFault)
  | inputUnnamed (input : String)
  | inputNotOpened (input : String) (failure : Failure)
  | outputNotCreated (output : String) (failure : Failure)
  | inputsFailed (count total : Nat)

namespace Fault

def text : Fault → String
  | failed failure => failure.message
  | invalidBitrate value _ => s!"Invalid bitrate '{value}'"
  | bitrateNotPositive value => s!"Bitrate must be positive, got '{value}'"
  | malformedComment comment => s!"Comment '{comment}' is not KEY=VALUE"
  | outputShared inputs output => s!"{inputs} inputs cannot share the single output file {output}"
  | directoryNotMade output _ => s!"Failed to create output directory {output}"
  | inputUnnamed input => s!"Input {input} has no file name"
  | inputNotOpened input _ => s!"Failed to open input {input}"
  | outputNotCreated output _ => s!"Failed to create output {output}"
  | inputsFailed count total => s!"{count} of {total} inputs failed"

def cause? : Fault → Option String
  | invalidBitrate _ fault => some fault.message
  | directoryNotMade _ fault => some fault.message
  | inputNotOpened _ failure | outputNotCreated _ failure => some failure.message
  | failed _ | bitrateNotPositive _ | malformedComment _ | outputShared .. | inputUnnamed _
  | inputsFailed .. => none

/-- Fault and cause in one line. -/
def line (fault : Fault) : String :=
  match fault.cause? with
  | some cause => fault.text ++ ": " ++ cause
  | none => fault.text

/-- Fault and cause in paragraphs of their own. -/
def report (fault : Fault) : String :=
  match fault.cause? with
  | some cause => fault.text ++ "\n\nCaused by:\n    " ++ cause
  | none => fault.text

end Fault

end VorbisTrack.Command
