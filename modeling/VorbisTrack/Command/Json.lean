import VorbisTrack.Digest

/-!
# JSON text

Objects are written with one member to a line, indented by two spaces.
-/

set_option autoImplicit false

namespace VorbisTrack.Command.Json

def escape (c : Char) : List Char :=
  if c = '"' then ['\\', '"']
  else if c = '\\' then ['\\', '\\']
  else if c = '\n' then ['\\', 'n']
  else if c = '\r' then ['\\', 'r']
  else if c = '\t' then ['\\', 't']
  else if c = '\x08' then ['\\', 'b']
  else if c = '\x0c' then ['\\', 'f']
  else if c.toNat < 32 then
    ['\\', 'u', '0', '0', hexDigit (c.toNat / 16), hexDigit (c.toNat % 16)]
  else [c]

def quoted (text : String) : String :=
  "\"" ++ String.ofList (text.toList.flatMap escape) ++ "\""

/-- Items between brackets, each on a line of its own at a depth. -/
def block (opening closing : String) (depth : Nat) (items : List String) : String :=
  let indent (n : Nat) := String.ofList (List.replicate (2 * n) ' ')
  opening ++ "\n" ++ ",\n".intercalate (items.map fun item => indent (depth + 1) ++ item)
    ++ "\n" ++ indent depth ++ closing

/-- An array at a depth. It must not be empty. -/
def array (depth : Nat) (items : List String) : String :=
  block "[" "]" depth items

/-- An object at a depth. It must not be empty. -/
def object (depth : Nat) (members : List (String × String)) : String :=
  block "\x7b" "\x7d" depth (members.map fun (name, value) => quoted name ++ ": " ++ value)

end VorbisTrack.Command.Json
