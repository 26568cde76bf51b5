import Cascade.Text.Printable

/-!
# Quoted text

The form in which messages and nested values show a text: in single quotes, or in double quotes if
it holds a single quote and no double one. The closing quote, the backslash and everything that is
not printable is escaped, with the shortest of the forms `\n`, `\xhh`, `\uhhhh`, `\Uhhhhhhhh`.
-/

namespace Cascade.Text

/-- The last `width` hexadecimal digits of a number, in lower case. -/
def hexDigits (width n : Nat) : List Char :=
  (List.range width).reverse.map fun i => Nat.digitChar (n / Nat.pow 16 i % 16)

/-- The quotation mark that surrounds a text. -/
def quoteMark (s : List Char) : Char :=
  if s.contains '\'' && ! s.contains '"' then '"' else '\''

/-- One character inside the quotation marks `mark`. -/
def quoteChar (mark c : Char) : List Char :=
  if c = mark || c = '\\' then ['\\', c]
  else if c = '\n' then ['\\', 'n']
  else if c = '\r' then ['\\', 'r']
  else if c = '\t' then ['\\', 't']
  else if isPrintable c then [c]
  else if c.toNat < 0x100 then '\\' :: 'x' :: hexDigits 2 c.toNat
  else if c.toNat < 0x10000 then '\\' :: 'u' :: hexDigits 4 c.toNat
  else '\\' :: 'U' :: hexDigits 8 c.toNat

/-- The text in quotation marks. -/
def quoted (s : String) : String :=
  let mark := quoteMark s.toList
  String.ofList (mark :: s.toList.flatMap (quoteChar mark) ++ [mark])

end Cascade.Text
