import VorbisTrack.Command.HeaderReport
import VorbisTrack.Command.Request

/-!
# Running the program

`Command.run` is the whole program as a function of its arguments and the files there are.
-/

set_option autoImplicit false

namespace VorbisTrack.Command

structure Outcome where
  /-- Zero for success, one for a command that failed, two for arguments that make no sense. -/
  exitCode : UInt8 := 0
  output : String := ""
  errors : String := ""
  files : FileTree

/-- The paths whose files a request may read or write. -/
def Request.paths : Request → List String
  | .help | .version => []
  | .encode inputs output _ =>
    inputs ++ output :: inputs.filterMap fun input => (outputIn output input).toOption
  | .headers input _ _ => [input]

def optionLines (scope : Scope) : List String :=
  scope.options.map fun option =>
    let letter := match option.short? with
      | some c => String.ofList ['-', c, ',', ' ']
      | none => "    "
    s!"  {letter}--{option.long}: {option.about}"

def helpText : String :=
  String.join <| List.map (· ++ "\n") <|
    ["Vorbis audio encoder", "", "Usage: zvd-vorbis [OPTIONS] <COMMAND>", "",
      "encode: Encode WAV files to Vorbis in WebM"]
    ++ optionLines Request.encodeScope
    ++ ["", "headers: Show the Vorbis header packets for an input and encoder settings"]
    ++ optionLines Request.headersScope
    ++ ["", "Options:"]
    ++ optionLines Request.topScope

def failedRun (fault : Fault) (output errors : String) (files : FileTree) : Outcome :=
  { exitCode := 1, output, errors := errors ++ "Error: " ++ fault.report ++ "\n", files }

def runEncode {σ : Type} (lib : Library σ) (inputs : List String) (output : String)
    (tuning : Tuning) (files : FileTree) : Outcome :=
  match outputPaths inputs output files with
  | (.error fault, files) => failedRun fault "" "" files
  | (.ok outputs, files) =>
    let (results, files) := encodeEach lib tuning (inputs.zip outputs) files
    let lines := results.filterMap fun ((input, output), result) =>
      match result with
      | .ok (tally, rate) => some (tallyLine input output tally rate)
      | .error _ => none
    let faults := results.filterMap fun ((input, _), result) =>
      match result with
      | .ok _ => none
      | .error fault => some s!"Error encoding {input}: {fault.line}\n"
    if faults.isEmpty then { output := String.join lines, files }
    else
      failedRun (.inputsFailed faults.length inputs.length) (String.join lines)
        (String.join faults) files

def runHeaders {σ : Type} (lib : Library σ) (input : String) (asJson : Bool) (tuning : Tuning)
    (files : FileTree) : Outcome :=
  match HeaderReport.ofInput lib tuning input files with
  | .error fault => failedRun fault "" "" files
  | .ok report => { output := if asJson then report.json else report.text, files }

def run {σ : Type} (lib : Library σ) (arguments : List String) (files : FileTree) : Outcome :=
  match Request.ofArguments arguments with
  | .error misuse => { exitCode := 2, errors := "error: " ++ misuse.message ++ "\n", files }
  | .ok .help => { output := helpText, files }
  | .ok .version => { output := Encoder.ident ++ "\n", files }
  | .ok (.encode inputs output tuning) => runEncode lib inputs output tuning files
  | .ok (.headers input asJson tuning) => runHeaders lib input asJson tuning files

end VorbisTrack.Command
