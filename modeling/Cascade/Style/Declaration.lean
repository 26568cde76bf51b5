import Cascade.Name
import Cascade.Value.Text

/-!
# Declarations

A property of a style object becomes a declaration: its name in kebab case and its value as text.
A bare number is a length in pixels, unless the property is one of those that take plain numbers.
-/

namespace Cascade

/-- The properties that take plain numbers, in camel case. -/
def unitlessNames : List String :=
  ["opacity", "flexGrow", "flexShrink", "fontWeight", "lineHeight", "order", "zIndex",
   "animationIterationCount", "aspectRatio"]

/-- The properties that take plain numbers, in either spelling. -/
def unitlessProperties : List String :=
  (unitlessNames ++ unitlessNames.map Name.kebab).eraseDups

namespace Value

/-- A number as text; whole numbers are written without a point. -/
def numberText? : Value → Option String
  | .int n => some (toString n)
  | .float x =>
    match x.toInt? with
    | some n => some (toString n)
    | none => some x.text
  | _ => none

/-- The text of a value in a declaration of this property. -/
def declared (property : String) : Value → String
  | .bool b => if b then "true" else "false"
  | v =>
    match v.numberText? with
    | some number => if unitlessProperties.contains property then number else number ++ "px"
    | none => v.text

end Value

/-- A declaration as it is written: name and value. -/
structure Declaration where
  name : String
  value : String
  deriving DecidableEq, Repr

namespace Declaration

/-- The declaration of a property. -/
def ofMember (member : String × Value) : Declaration :=
  ⟨Name.kebab member.1, member.2.declared member.1⟩

def text (d : Declaration) : String :=
  d.name ++ ": " ++ d.value ++ ";"

end Declaration

/-- Declarations as the body of a rule. -/
def declarationsText (ds : List Declaration) : String :=
  " ".intercalate (ds.map Declaration.text)

end Cascade
