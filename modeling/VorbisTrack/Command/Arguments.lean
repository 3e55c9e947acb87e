import VorbisTrack.Command.Option
import VorbisTrack.Text

/-!
# Scanning arguments

Options are given by a long name, `--name value` or `--name=value`, or by a letter, `-n value`,
`-nvalue` or `-n=value`; letters of options without values may be joined. Arguments are looked at
one after the other, and the first that is wrong, or that asks for help or the version, settles
the matter. A word that names a command ends the scan; the arguments behind it are the command's.
-/

set_option autoImplicit false

namespace VorbisTrack.Command

inductive Misuse
  | unknownArgument (token : String)
  | unexpectedValue (option : OptionName) (value : String)
  | missingValue (option : OptionName)
  | invalidValue (option : OptionName) (value : String)
  | repeated (option : OptionName)
  | missingOption (option : OptionName)
  | missingCommand

def Misuse.message : Misuse → String
  | .unknownArgument token => s!"unexpected argument '{token}' found"
  | .unexpectedValue option value => s!"unexpected value '{value}' for '--{option.long}' found"
  | .missingValue option => s!"a value is required for '--{option.long}' but none was supplied"
  | .invalidValue option value => s!"invalid value '{value}' for '--{option.long}'"
  | .repeated option => s!"the argument '--{option.long}' cannot be used multiple times"
  | .missingOption option => s!"the argument '--{option.long}' was not provided"
  | .missingCommand => "a subcommand is required but none was provided"

/-- Why a scan ends early. -/
inductive Stop
  | help
  | version
  | misuse (misuse : Misuse)

/-- An option that was given, with its value. -/
structure Use where
  option : OptionName
  value : String := ""

/-- What may be given at one level of the command line. -/
structure Scope where
  options : List OptionName
  /-- The options that may be given more than once. -/
  repeatable : List OptionName := []
  commands : List String := []

structure Scanned where
  uses : List Use
  command : Option (String × List String) := none

/-- Whether a text is a minus sign before the digits of a number. A point may stand among the
digits but not first, and an exponent without sign may follow. -/
def looksNegative : List Char → Bool
  | '-' :: body =>
    let mantissa := body.takeWhile (· != 'e')
    let exponent := body.dropWhile (· != 'e')
    mantissa.head?.any Char.isDigit
      && mantissa.all (fun c => c.isDigit || c == '.')
      && mantissa.count '.' ≤ 1
      && exponent.all (fun c => c.isDigit || c == 'e')
      && exponent.count 'e' ≤ 1
      && exponent.length != 1
  | _ => false

/-- Whether an argument can be the value of the option before it, and is not an option itself. -/
def OptionName.mayTake (option : OptionName) (token : String) : Bool :=
  match token.toList with
  | '-' :: [] => true
  | '-' :: cs => option.takesNegative && looksNegative ('-' :: cs)
  | _ => true

namespace Scope

variable (scope : Scope)

def ofShort? (letter : Char) : Option OptionName :=
  scope.options.find? fun option => option.short? == some letter

def ofLong? (name : String) : Option OptionName :=
  scope.options.find? fun option => option.long == name

def note (uses : List Use) (option : OptionName) (value : String) : Except Stop (List Use) :=
  if option = .help then .error .help
  else if option = .version then .error .version
  else if (uses.any fun use => use.option = option) ∧ option ∉ scope.repeatable then
    .error (.misuse (.repeated option))
  else if ¬ option.accepts value then .error (.misuse (.invalidValue option value))
  else .ok (uses ++ [⟨option, value⟩])

/-- Reads joined letters. An option that still lacks its value is given back. -/
def readLetters (uses : List Use) : List Char → Except Stop (List Use × Option OptionName)
  | [] => .ok (uses, none)
  | letter :: rest =>
    match scope.ofShort? letter with
    | none => .error (.misuse (.unknownArgument (String.ofList ['-', letter])))
    | some option =>
      if option.takesValue then
        match rest with
        | [] => .ok (uses, some option)
        | '=' :: value | value =>
          (scope.note uses option (String.ofList value)).map fun uses => (uses, none)
      else
        match scope.note uses option "" with
        | .error stop => .error stop
        | .ok uses => readLetters uses rest

/-- Reads a long name, with the value that may be joined to it. -/
def readLong (uses : List Use) (body : List Char) :
    Except Stop (List Use × Option OptionName) :=
  let (name, value) := match splitFirst? '=' body with
    | some (name, value) => (String.ofList name, some (String.ofList value))
    | none => (String.ofList body, none)
  match scope.ofLong? name, value with
  | none, _ => .error (.misuse (.unknownArgument ("--" ++ name)))
  | some option, some value =>
    if option.takesValue then (scope.note uses option value).map fun uses => (uses, none)
    else .error (.misuse (.unexpectedValue option value))
  | some option, none =>
    if option.takesValue then .ok (uses, some option)
    else (scope.note uses option "").map fun uses => (uses, none)

def readOption (uses : List Use) (token : String) : Except Stop (List Use × Option OptionName) :=
  match token.toList with
  | '-' :: '-' :: body => scope.readLong uses body
  | '-' :: letter :: letters => scope.readLetters uses (letter :: letters)
  | _ => .error (.misuse (.unknownArgument token))

/-- Scans arguments. Behind the argument `--` no options and no commands are looked for, and there
is nothing else that could be given. -/
def scan (uses : List Use) : List String → Except Stop Scanned
  | [] => .ok { uses }
  | token :: rest =>
    if token ∈ scope.commands then .ok { uses, command := some (token, rest) }
    else if token = "--" then
      match rest with
      | [] => .ok { uses }
      | next :: _ => .error (.misuse (.unknownArgument next))
    else
      match scope.readOption uses token with
      | .error stop => .error stop
      | .ok (uses, none) => scan uses rest
      | .ok (uses, some option) =>
        match rest with
        | [] => .error (.misuse (.missingValue option))
        | value :: rest =>
          if option.mayTake value then
            match scope.note uses option value with
            | .error stop => .error stop
            | .ok uses => scan uses rest
          else .error (.misuse (.missingValue option))

end Scope

namespace Scanned

def values (s : Scanned) (option : OptionName) : List String :=
  (s.uses.filter fun use => use.option = option).map Use.value

def value? (s : Scanned) (option : OptionName) : Option String :=
  (s.values option).head?

def has (s : Scanned) (option : OptionName) : Bool :=
  s.uses.any fun use => use.option = option

end Scanned

end VorbisTrack.Command
