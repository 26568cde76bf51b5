import Cascade.Layer
import Cascade.Style.Key
import Cascade.Value.Text

/-!
# Faults

Why a style description is refused. A fault has a cause and the path of keys that enclose the
entry at fault, outermost first. The wording of all messages is here.
-/

namespace Cascade

inductive Cause where
  /-- A property whose value is an object. -/
  | propertyHoldsObject (key : String)
  /-- A nested selector whose value is no object. -/
  | nestedNotObject (key : String) (found : Value.Kind)
  /-- A group of conditional styles that is no object. -/
  | groupNotObject (rule : AtRule) (found : Value.Kind)
  /-- A condition whose value is neither null nor an object. -/
  | conditionNotObject (rule : AtRule) (condition : String) (found : Value.Kind)
  /-- A named style that is no object. -/
  | styleNotObject (key : String)
  /-- A component whose styles are no object. -/
  | stylesNotObject
  /-- A document whose member `styles` is missing or no object. -/
  | stylesMemberNotObject
  /-- A document that is no object. -/
  | documentNotObject
  /-- A document whose container is no object. -/
  | containerNotObject
  /-- A container type other than the four. -/
  | unknownContainerType (found : Value)
  /-- A layer other than the five. -/
  | unknownLayer (found : Value)

/-- The four types of a container. -/
def containerTypes : List String :=
  ["normal", "size", "inline-size", "block-size"]

namespace Cause

/-- The key of the entry at fault; a document that is no object has none. -/
def key? : Cause → Option String
  | propertyHoldsObject key => some key
  | nestedNotObject key _ => some key
  | groupNotObject rule _ => some rule.keyword
  | conditionNotObject rule _ _ => some rule.keyword
  | styleNotObject key => some key
  | stylesNotObject => some "styles"
  | stylesMemberNotObject => some "styles"
  | documentNotObject => none
  | containerNotObject => some "container"
  | unknownContainerType _ => some "type"
  | unknownLayer _ => some "layer"

/-- What is wrong, without where. -/
def message : Cause → String
  | propertyHoldsObject key =>
    "property " ++ Text.quoted key ++ " holds a nested style object; nested " ++
      "selectors must start with '&' or a space"
  | nestedNotObject key found =>
    "nested selector " ++ Text.quoted key ++ " must be a style object, got " ++ found.name
  | groupNotObject rule found =>
    rule.keyword ++ " must map condition strings to style objects, got " ++ found.name
  | conditionNotObject rule condition found =>
    rule.keyword ++ " condition " ++ Text.quoted condition ++ " must be a style object, got " ++
      found.name
  | styleNotObject key => "style " ++ Text.quoted key ++ " must be a mapping"
  | stylesNotObject => "styles must be a mapping"
  | stylesMemberNotObject => "'styles' must be a mapping"
  | documentNotObject => "component config must be a mapping"
  | containerNotObject => "'container' must be a mapping"
  | unknownContainerType found =>
    "container type " ++ found.literal ++ " is not one of " ++ ", ".intercalate containerTypes
  | unknownLayer found =>
    "Unknown cascade layer " ++ found.literal ++ "; expected one of: " ++ Layer.listing

end Cause

structure Fault where
  cause : Cause
  path : List String := []

namespace Fault

def key? (fault : Fault) : Option String :=
  fault.cause.key?

/-- The cause, and where it was found if that is inside of something. -/
def message (fault : Fault) : String :=
  match fault.path with
  | [] => fault.cause.message
  | path => fault.cause.message ++ " (at " ++ " > ".intercalate path ++ ")"

end Fault

/-- A value that was to be an object and is not, found where no style description is checked. -/
structure NotObject where
  found : Value.Kind

def NotObject.message (e : NotObject) : String :=
  "'" ++ e.found.name ++ "' object has no attribute 'items'"

end Cascade
