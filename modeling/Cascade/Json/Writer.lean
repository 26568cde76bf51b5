import Cascade.Text.Character
import Cascade.Text.Quoted

/-!
# Writing JSON

Strings are written in ASCII: every character outside the printable ASCII range is escaped, those
of the higher planes as a pair of surrogates. Objects are written with one member a line, each
level indented by two spaces.
-/

namespace Cascade.Json

/-- One character inside a string. -/
def escapeChar (c : Char) : List Char :=
  if c = '"' || c = '\\' then ['\\', c]
  else if c = '\n' then ['\\', 'n']
  else if c = '\r' then ['\\', 'r']
  else if c = '\t' then ['\\', 't']
  else if c = '\x08' then ['\\', 'b']
  else if c = '\x0c' then ['\\', 'f']
  else if ' ' ≤ c && c ≤ '~' then [c]
  else (Text.unitsOf c).flatMap fun unit => '\\' :: 'u' :: Text.hexDigits 4 unit.toNat

/-- A string in its written form. -/
def writeText (s : String) : String :=
  String.ofList ('"' :: s.toList.flatMap escapeChar ++ ['"'])

/-- An object whose members are written already, at this indentation. -/
def writeObject (indent : Nat) (members : List (String × String)) : String :=
  if members.isEmpty then "\x7b\x7d"
  else
    let margin (n : Nat) := String.ofList (List.replicate n ' ')
    let lines := members.map fun (name, value) =>
      margin (indent + 2) ++ writeText name ++ ": " ++ value
    "\x7b\n" ++ ",\n".intercalate lines ++ "\n" ++ margin indent ++ "\x7d"

end Cascade.Json
