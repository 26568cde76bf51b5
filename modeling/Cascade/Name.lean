import Cascade.Checksum
import Cascade.Text.Lowercase

/-!
# Names

Names in camel case (`flexGrow`) become names in kebab case (`flex-grow`): a hyphen goes between a
small letter or digit and a capital, and the whole is lower-cased. Only ASCII letters and digits
make a boundary; the lower-casing is that of all of Unicode.

A style key becomes a class name of two parts: the key in kebab case for people, and a short
checksum of the key with a running number. Equal names for different styles are possible and not
detected.
-/

namespace Cascade.Name

/-- Whether a capital behind this character starts a new word. -/
def endsWord (c : Char) : Bool :=
  c.isLower || c.isDigit

/-- Puts a hyphen before each capital that starts a new word. -/
def hyphenate : List Char → List Char
  | a :: b :: rest =>
    if endsWord a && b.isUpper then a :: '-' :: hyphenate (b :: rest)
    else a :: hyphenate (b :: rest)
  | short => short

/-- The vendor name `ms` at the front is written with a hyphen before it. -/
def markVendor : List Char → List Char
  | 'm' :: 's' :: '-' :: rest => '-' :: 'm' :: 's' :: '-' :: rest
  | name => name

/-- A custom property keeps its name, capitals and all. -/
def isCustom (name : String) : Bool :=
  ['-', '-'].isPrefixOf name.toList

/-- The name in kebab case. -/
def kebab (name : String) : String :=
  if isCustom name then name
  else String.ofList (Text.lowerFrom false (markVendor (hyphenate name.toList)))

/-- The class name for the style `key` with this running number. -/
def ofStyle (key : String) (number : Int) : String :=
  kebab key ++ "-" ++ Checksum.short (key ++ toString number)

end Cascade.Name
