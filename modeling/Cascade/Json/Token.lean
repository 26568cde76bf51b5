import Cascade.Json.Problem
import Cascade.Value.Basic

/-!
# Tokens of a JSON text

Tokens are read one after the other without regard to what is expected. A token may be faulty: a
string with a bad escape, a number with too many digits, a character that begins nothing. Its
fault counts only where such a token would have been welcome, so it is kept in the token and left
to the reader.

A number is its longest valid beginning: in `1.` the number is `1`, and the point is a token of
its own that begins nothing.
-/

namespace Cascade.Json

inductive Token where
  | openList | closeList | openObject | closeObject | comma | colon
  /-- A literal or a number. -/
  | scalar (value : Value)
  /-- A string. -/
  | text (s : String)
  /-- A string with a problem at an offset from its opening quote. -/
  | badText (problem : Problem) (offset : Nat)
  /-- A whole number with too many digits. -/
  | oversized
  /-- A character that begins no token. -/
  | unknown

/-- A token and the position of its first character. -/
structure Placed where
  token : Token
  start : Nat

/-- The only characters that may stand between tokens. -/
def isSpace (c : Char) : Bool :=
  c = ' ' || c = '\t' || c = '\n' || c = '\r'

/-! ## Strings -/

def hexDigit? (c : Char) : Option Nat :=
  if '0' ≤ c && c ≤ '9' then some (c.toNat - '0'.toNat)
  else if 'a' ≤ c && c ≤ 'f' then some (c.toNat - 'a'.toNat + 10)
  else if 'A' ≤ c && c ≤ 'F' then some (c.toNat - 'A'.toNat + 10)
  else none

/-- The number that four hexadecimal digits stand for. -/
def hex4? (a b c d : Char) : Option Nat := do
  return 0x1000 * (← hexDigit? a) + 0x100 * (← hexDigit? b) + 0x10 * (← hexDigit? c) +
    (← hexDigit? d)

/-- The character that a letter stands for behind a backslash. -/
def unescape? : Char → Option Char
  | '"' => some '"'
  | '\\' => some '\\'
  | '/' => some '/'
  | 'b' => some '\x08'
  | 'f' => some '\x0c'
  | 'n' => some '\n'
  | 'r' => some '\r'
  | 't' => some '\t'
  | _ => none

/-- Reads a string behind its opening quote; `offset` is the distance from that quote. Gives the
code points and code units of the string, still apart, and the offset behind the closing quote.

Escapes by number must be followed by at least one character more, which in a finished string is
its closing quote at the latest. -/
def scanText (offset : Nat) : List Char → Except (Problem × Nat) (List Nat × Nat)
  | [] => .error (.unterminatedString, 0)
  | '"' :: _ => .ok ([], offset + 1)
  | ['\\'] => .error (.unterminatedString, 0)
  | '\\' :: 'u' :: a :: b :: c :: d :: next :: rest =>
    match hex4? a b c d with
    | some n =>
      (scanText (offset + 6) (next :: rest)).map fun (units, stop) => (n :: units, stop)
    | none => .error (.badUnicodeEscape, offset + 1)
  | '\\' :: 'u' :: _ => .error (.badUnicodeEscape, offset + 1)
  | '\\' :: letter :: rest =>
    match unescape? letter with
    | some c => (scanText (offset + 2) rest).map fun (units, stop) => (c.toNat :: units, stop)
    | none => .error (.badEscape, offset)
  | c :: rest =>
    if c.toNat < 0x20 then .error (.controlCharacter, offset)
    else (scanText (offset + 1) rest).map fun (units, stop) => (c.toNat :: units, stop)

def isHighSurrogate (n : Nat) : Bool :=
  0xd800 ≤ n && n < 0xdc00

def isLowSurrogate (n : Nat) : Bool :=
  0xdc00 ≤ n && n < 0xe000

/-- The character of a unit on its own; half of a pair is replaced. -/
def unitChar (n : Nat) : Char :=
  if isHighSurrogate n || isLowSurrogate n then '\ufffd' else Char.ofNat n

/-- Joins pairs of surrogates into one character each. -/
def joinUnits : List Nat → List Char
  | high :: low :: rest =>
    if isHighSurrogate high && isLowSurrogate low then
      Char.ofNat (0x10000 + (high - 0xd800) * 0x400 + (low - 0xdc00)) :: joinUnits rest
    else unitChar high :: joinUnits (low :: rest)
  | [unit] => [unitChar unit]
  | [] => []

/-- The string token behind an opening quote, and its length. -/
def lexText (rest : List Char) : Token × Nat :=
  match scanText 1 rest with
  | .ok (units, stop) => (.text (String.ofList (joinUnits units)), stop)
  | .error (problem, offset) => (.badText problem offset, 1)

/-! ## Numbers -/

/-- Whole numbers of more digits are not read. -/
def maxIntegerDigits : Nat := 4300

/-- The value of decimal digits. -/
def decimalValue (digits : List Char) : Nat :=
  digits.foldl (fun n c => 10 * n + (c.toNat - '0'.toNat)) 0

/-- The digits before the point: a single zero, or digits that do not begin with one. -/
def wholeDigits : List Char → List Char
  | '0' :: _ => ['0']
  | cs => cs.takeWhile Char.isDigit

/-- The digits behind a point, if the text begins with a point and a digit. -/
def fractionDigits : List Char → List Char
  | '.' :: cs => cs.takeWhile Char.isDigit
  | _ => []

/-- The exponent at the front of the text, and its length. -/
def exponentPart : List Char → Option (Int × Nat)
  | mark :: cs =>
    if mark = 'e' || mark = 'E' then
      let (negative, signLength, cs) :=
        match cs with
        | '-' :: cs => (true, 1, cs)
        | '+' :: cs => (false, 1, cs)
        | cs => (false, 0, cs)
      match cs.takeWhile Char.isDigit with
      | [] => none
      | digits =>
        let n : Int := decimalValue digits
        some (if negative then -n else n, 1 + signLength + digits.length)
    else none
  | [] => none

/-- The unsigned number at the front of the text, and its length. With neither fraction nor
exponent it is a whole number, otherwise a floating-point number. -/
def lexUnsigned (negative : Bool) (cs : List Char) : Option (Token × Nat) :=
  match wholeDigits cs with
  | [] => none
  | whole =>
    let cs := cs.drop whole.length
    let fraction := fractionDigits cs
    let fractionLength := if fraction.isEmpty then 0 else fraction.length + 1
    match fraction, exponentPart (cs.drop fractionLength) with
    | [], none =>
      if maxIntegerDigits < whole.length then some (.oversized, whole.length)
      else
        let n : Int := decimalValue whole
        some (.scalar (.int (if negative then -n else n)), whole.length)
    | fraction, exponent =>
      let (e, exponentLength) := exponent.getD (0, 0)
      some
        (.scalar (.float
          (Double.ofDecimal negative (decimalValue (whole ++ fraction)) (e - fraction.length))),
          whole.length + fractionLength + exponentLength)

/-! ## All tokens -/

/-- Words that stand for a value. -/
def literals : List (String × Value) :=
  [("null", .null), ("true", .bool true), ("false", .bool false), ("NaN", .float .nan),
   ("Infinity", .float (.infinity false)), ("-Infinity", .float (.infinity true))]

/-- The literal or number at the front of the text, and its length. -/
def lexScalar (cs : List Char) : Token × Nat :=
  match literals.find? (·.1.toList.isPrefixOf cs) with
  | some (word, value) => (.scalar value, word.length)
  | none =>
    let number : Option (Token × Nat) :=
      match cs with
      | '-' :: rest => (lexUnsigned true rest).map fun (token, length) => (token, length + 1)
      | _ => lexUnsigned false cs
    number.getD (.unknown, 1)

/-- The token that begins with this character, and its length. -/
def lexToken (c : Char) (rest : List Char) : Token × Nat :=
  match c with
  | '[' => (.openList, 1)
  | ']' => (.closeList, 1)
  | '{' => (.openObject, 1)
  | '}' => (.closeObject, 1)
  | ',' => (.comma, 1)
  | ':' => (.colon, 1)
  | '"' => lexText rest
  | _ => lexScalar (c :: rest)

/-- The tokens of a text from `position` on. The first `skip` characters belong to the token
before. -/
def lexFrom (position : Nat) : Nat → List Char → List Placed
  | _, [] => []
  | skip + 1, _ :: rest => lexFrom (position + 1) skip rest
  | 0, c :: rest =>
    if isSpace c then lexFrom (position + 1) 0 rest
    else
      let (token, length) := lexToken c rest
      ⟨token, position⟩ :: lexFrom (position + 1) (length - 1) rest

/-- The tokens of a text. -/
def tokens (text : List Char) : List Placed :=
  lexFrom 0 0 text

end Cascade.Json
