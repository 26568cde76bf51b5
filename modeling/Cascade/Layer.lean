import Cascade.Text.Character

/-!
# Cascade layers

Five layers in a fixed order, from the lowest precedence to the highest. A rule in a later layer
wins over every rule in an earlier one, however specific the earlier rule's selector is. Layers
are named in a statement that must come before all layered rules, and filled by `@layer` blocks.
-/

namespace Cascade

inductive Layer where
  | reset | tokens | utilities | components | overrides
  deriving DecidableEq, Repr

namespace Layer

/-- All layers, lowest precedence first. -/
def all : List Layer :=
  [.reset, .tokens, .utilities, .components, .overrides]

def name : Layer → String
  | .reset => "reset"
  | .tokens => "tokens"
  | .utilities => "utilities"
  | .components => "components"
  | .overrides => "overrides"

/-- The layer with this name. Names are matched exactly. -/
def ofName? (name : String) : Option Layer :=
  all.find? (·.name = name)

/-- The place in the cascade, counted from one. -/
def order (layer : Layer) : Nat :=
  all.idxOf layer + 1

def description : Layer → String
  | .reset => "Minimal, orthogonal browser normalization"
  | .tokens => "Design tokens as CSS custom properties"
  | .utilities => "Private .u-* prefixed layout primitives"
  | .components => "Public semantic component classes"
  | .overrides => "Consumer escape hatch for customization"

/-- Whether consumers may rely on what the layer holds. -/
def isPublic : Layer → Bool
  | .reset => false
  | .tokens => true
  | .utilities => false
  | .components => true
  | .overrides => true

theorem ofName?_name (layer : Layer) : ofName? layer.name = some layer := by
  cases layer <;> decide

theorem name_of_ofName? {s : String} {layer : Layer} (h : ofName? s = some layer) :
    layer.name = s := by
  simpa using List.find?_some h

/-- The names of all layers as a list for readers. -/
def listing : String :=
  ", ".intercalate (all.map name)

/-- The statement that fixes the order of the layers. -/
def statement : String :=
  "@layer " ++ listing ++ ";"

/-- Puts rules into the layer with this name. Blank text needs no block. -/
def wrapNamed (name css : String) : String :=
  if Text.isBlankText css then "" else "@layer " ++ name ++ " \x7b " ++ css ++ " \x7d"

/-- Puts rules into a layer. -/
def wrap (layer : Layer) (css : String) : String :=
  wrapNamed layer.name css

end Layer

end Cascade
