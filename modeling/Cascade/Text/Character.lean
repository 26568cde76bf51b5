/-!
# Characters

Three views of characters. Classes of characters are held as closed spans of code points, in
ascending order, and membership is a search. The blank characters are such a class: the 25
characters of Unicode's `White_Space` and the four information separators U+001C to U+001F. And
checksums, like escapes, run over 16-bit code units: a character of the basic plane is one unit,
any other is a high and a low surrogate.
-/

namespace Cascade.Text

/-! ## Spans of code points -/

/-- Closed spans of code points, first and last. -/
abbrev Spans := List (Nat × Nat)

/-- Whether some span holds the code point. -/
def Spans.contains (spans : Spans) (n : Nat) : Bool :=
  spans.any fun (first, last) => first ≤ n && n ≤ last

/-! ## Blanks -/

/-- The code points of blank characters. -/
def blankSpans : Spans :=
  [(0x09, 0x0d), (0x1c, 0x20), (0x85, 0x85), (0xa0, 0xa0), (0x1680, 0x1680), (0x2000, 0x200a),
   (0x2028, 0x2029), (0x202f, 0x202f), (0x205f, 0x205f), (0x3000, 0x3000)]

def isBlank (c : Char) : Bool :=
  blankSpans.contains c.toNat

/-- The text without the blanks at its two ends. -/
def strip (s : String) : String :=
  String.ofList ((s.toList.dropWhile isBlank).reverse.dropWhile isBlank).reverse

/-- Whether the text holds nothing but blanks. -/
def isBlankText (s : String) : Bool :=
  s.toList.all isBlank

/-! ## Code units -/

/-- The 16-bit code units of a character. -/
def unitsOf (c : Char) : List UInt16 :=
  if c.toNat < 0x10000 then [c.toNat.toUInt16]
  else
    let n := c.toNat - 0x10000
    [(0xd800 + n / 0x400).toUInt16, (0xdc00 + n % 0x400).toUInt16]

/-- The 16-bit code units of a text, in order. -/
def units (s : String) : List UInt16 :=
  s.toList.flatMap unitsOf

@[simp] theorem units_append (s t : String) : units (s ++ t) = units s ++ units t := by
  simp [units]

end Cascade.Text
