/-!
# What is wrong with a JSON text

A text that is no JSON has a first problem at a position, counted in characters from zero. For
people the position is also given as line and column, both counted from one.
-/

namespace Cascade.Json

inductive Problem where
  | expectingValue
  | expectingName
  | expectingColon
  | expectingComma
  | extraData
  | unterminatedString
  | controlCharacter
  | badEscape
  | badUnicodeEscape
  | byteOrderMark
  deriving DecidableEq, Repr

def Problem.message : Problem → String
  | expectingValue => "Expecting value"
  | expectingName => "Expecting property name enclosed in double quotes"
  | expectingColon => "Expecting ':' delimiter"
  | expectingComma => "Expecting ',' delimiter"
  | extraData => "Extra data"
  | unterminatedString => "Unterminated string starting at"
  | controlCharacter => "Invalid control character at"
  | badEscape => "Invalid \\escape"
  | badUnicodeEscape => "Invalid \\uXXXX escape"
  | byteOrderMark => "Unexpected UTF-8 BOM (decode using utf-8-sig)"

/-- Why a text was not read. -/
inductive ReadFault where
  /-- The text is no JSON. -/
  | malformed (problem : Problem) (position : Nat)
  /-- A whole number has more digits than are read. -/
  | oversizedInteger
  deriving DecidableEq, Repr

/-- The line of a position: one more than the line feeds before it. -/
def lineOf (text : List Char) (position : Nat) : Nat :=
  (text.take position).count '\n' + 1

/-- The column of a position: one more than the characters between it and the line feed before. -/
def columnOf (text : List Char) (position : Nat) : Nat :=
  ((text.take position).reverse.takeWhile (· ≠ '\n')).length + 1

/-- The problem and its place, for people. -/
def Problem.describe (problem : Problem) (text : List Char) (position : Nat) : String :=
  problem.message ++ ": line " ++ toString (lineOf text position) ++ " column " ++
    toString (columnOf text position) ++ " (char " ++ toString position ++ ")"

end Cascade.Json
