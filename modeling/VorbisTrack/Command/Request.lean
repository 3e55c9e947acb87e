import VorbisTrack.Command.Tuning

/-!
# Requests on the command line
-/

set_option autoImplicit false

namespace VorbisTrack.Command

inductive Request
  | help
  | version
  /-- Encode WAVE files. -/
  | encode (inputs : List String) (output : String) (tuning : Tuning)
  /-- Tell of the header packets for a WAVE file. -/
  | headers (input : String) (asJson : Bool) (tuning : Tuning)

namespace Request

def commonOptions : List OptionName := [.help, .verbose, .debug, .threads]

def topScope : Scope :=
  { options := .version :: commonOptions, commands := ["encode", "headers", "help"] }

def encodeScope : Scope :=
  { options := commonOptions ++ [.input, .output] ++ Tuning.options
    repeatable := [.input, .comment] }

def headersScope : Scope :=
  { options := commonOptions ++ [.input, .json] ++ Tuning.options
    repeatable := [.comment] }

def encodeOf (s : Scanned) : Except Misuse Request :=
  match s.values .input, s.value? .output with
  | [], _ => .error (.missingOption .input)
  | _, none => .error (.missingOption .output)
  | inputs, some output => .ok (.encode inputs output (.ofScanned s))

def headersOf (s : Scanned) : Except Misuse Request :=
  match s.value? .input with
  | none => .error (.missingOption .input)
  | some input => .ok (.headers input (s.has .json) (.ofScanned s))

def settle (scanned : Except Stop Scanned) (build : Scanned → Except Misuse Request) :
    Except Misuse Request :=
  match scanned with
  | .error .help => .ok .help
  | .error .version => .ok .version
  | .error (.misuse misuse) => .error misuse
  | .ok s => build s

/-- Help may be asked for one command. -/
def helpOn : List String → Except Misuse Request
  | [] => .ok .help
  | [command] =>
    if command ∈ topScope.commands then .ok .help else .error (.unknownArgument command)
  | _ :: token :: _ => .error (.unknownArgument token)

def ofCommand (command : String) (arguments : List String) : Except Misuse Request :=
  if command = "encode" then settle (encodeScope.scan [] arguments) encodeOf
  else if command = "headers" then settle (headersScope.scan [] arguments) headersOf
  else helpOn arguments

def ofArguments (arguments : List String) : Except Misuse Request :=
  settle (topScope.scan [] arguments) fun s =>
    match s.command with
    | none => .error .missingCommand
    | some (command, rest) => ofCommand command rest

end Request

end VorbisTrack.Command
