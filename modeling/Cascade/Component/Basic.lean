import Cascade.Fault

/-!
# Components

A component is a set of named style objects, the layer they go to, and perhaps a container that
surrounds it. There are three ways to one: from a JSON document, whose requirements are checked in
a fixed order (`Component.ofDocument`); from its parts (`Component.ofParts`); and from a name,
with the container that usually goes with it (`Component.named`).
-/

namespace Cascade

/-- The container around a component. Both parts may be any value; what is not given is left out. -/
structure Container where
  name : Value := .null
  type : Value := .null

structure Component where
  /-- The style objects by name. `ofParts` lets other values through: compiling refuses them. -/
  styles : Members
  layer : Layer := .components
  container : Option Container := none

/-- What compiling may be told. -/
structure Settings where
  /-- The class that makes an element the container. -/
  containerSelector : String := "component-container"
  /-- The layer of components that name none. -/
  defaultLayer : String := "components"
  /-- What stands between two rules. -/
  ruleSeparator : String := "\n"

namespace Layer

/-- The layer that a value names. -/
def ofValue : Value → Except Fault Layer
  | .str s =>
    match ofName? s with
    | some layer => .ok layer
    | none => .error ⟨.unknownLayer (.str s), []⟩
  | v => .error ⟨.unknownLayer v, []⟩

end Layer

namespace Container

/-- Whether a value is missing or one of the four container types. -/
def isType : Value → Bool
  | .null => true
  | .str s => containerTypes.contains s
  | _ => false

/-- The container of a document; a missing one and null are none. -/
def ofDocument : Value → Except Fault (Option Container)
  | .null => .ok none
  | .object members =>
    let type := (Members.get? members "type").getD .null
    if isType type then .ok (some ⟨(Members.get? members "name").getD .null, type⟩)
    else .error ⟨.unknownContainerType type, ["container"]⟩
  | _ => .error ⟨.containerNotObject, []⟩

end Container

namespace Component

/-- The first style that is no object. -/
def firstNonObject? : Members → Option String
  | [] => none
  | (key, value) :: rest => if value.members?.isSome then firstNonObject? rest else some key

/-- Reads the styles of a document: an object of objects. -/
def stylesOfDocument (document : Members) : Except Fault Members :=
  match document.get? "styles" with
  | some (.object styles) =>
    match firstNonObject? styles with
    | none => .ok styles
    | some key => .error ⟨.styleNotObject key, ["styles"]⟩
  | _ => .error ⟨.stylesMemberNotObject, []⟩

/-- Reads a component from a document. Styles are checked first, then the container, then the
layer. -/
def ofDocument : Value → Except Fault Component
  | .object document => do
    let styles ← stylesOfDocument document
    let container ← Container.ofDocument ((Members.get? document "container").getD .null)
    let layer ← Layer.ofValue ((Members.get? document "layer").getD (.str Layer.components.name))
    return { styles, layer, container }
  | _ => .error ⟨.documentNotObject, []⟩

/-- Puts a component together. The layer is checked before the styles, and the styles only for
being an object. -/
def ofParts (styles layer : Value) (container : Option Container) : Except Fault Component := do
  let layer ← Layer.ofValue layer
  match styles with
  | .object styles => return { styles, layer, container }
  | _ => .error ⟨.stylesNotObject, []⟩

/-- A component in a container of its own name, unless it is to have none. A layer that is not
given is the default one. -/
def named (settings : Settings) (name styles : Value) (inContainer : Bool) (layer : Value) :
    Except Fault Component :=
  ofParts styles
    (if layer.isTruthy then layer else .str settings.defaultLayer)
    (if inContainer then some ⟨name, .str "inline-size"⟩ else none)

end Component

end Cascade
