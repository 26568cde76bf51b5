import Cascade.Text.CaseTable

/-!
# Lower case

Full lower-casing of a text. Almost every character is mapped on its own; two are not:

- the dotted capital I becomes two characters, an `i` and a combining dot;
- a capital sigma becomes the final form `ς` at the end of a word, that is, behind a character
  with case and not before one, where characters without weight in that decision are skipped on
  both sides. Neighbours are those of the text as it was given.
-/

namespace Cascade.Text

/-- The lower case of a character outside of any context. -/
def lowerChar (c : Char) : List Char :=
  if c.toNat < 0x80 then [c.toLower]
  else if c = '\u0130' then ['i', '\u0307']
  else
    match lowerRuns.find? (·.covers c.toNat) with
    | some run => [Char.ofNat (c.toNat + run.shift).toNat]
    | none => [c]

def isCaseIgnorable (c : Char) : Bool :=
  caseIgnorableSpans.contains c.toNat

def isCased (c : Char) : Bool :=
  casedSpans.contains c.toNat

/-- Whether the first character that counts has a letter case. -/
def startsCased : List Char → Bool
  | [] => false
  | c :: rest => if isCaseIgnorable c then startsCased rest else isCased c

/-- Lower-cases the text behind a word that so far ends in a cased character, or does not. -/
def lowerFrom (afterCased : Bool) : List Char → List Char
  | [] => []
  | c :: rest =>
    let here :=
      if c = 'Σ' then (if afterCased && ! startsCased rest then ['ς'] else ['σ'])
      else lowerChar c
    here ++ lowerFrom (if isCaseIgnorable c then afterCased else isCased c) rest

end Cascade.Text
