import Cascade.Component.Basic
import Cascade.Json.Writer
import Cascade.Name
import Cascade.Style.Findings

/-!
# Compiling a component

Each style gets a class name made of its key and its place; its rules are those of its style
object for that class. The rules of all styles, with the container's rule before them, are joined
and put into the component's layer. A component that has nothing to say compiles to empty text.
-/

namespace Cascade

/-- What a component compiles to. -/
structure Compiled where
  /-- The class name of each style, in the order of the styles. -/
  classes : List (String × String)
  css : String
  deriving DecidableEq, Repr

/-- The class names and the style text as a JSON document. -/
def Compiled.json (c : Compiled) : String :=
  Json.writeObject 0
    [("class_map",
      Json.writeObject 2 (c.classes.map fun (key, name) => (key, Json.writeText name))),
     ("css", Json.writeText c.css)]

namespace Container

/-- What makes an element the container: those of name and type that are given. -/
def declarations (c : Container) : List Declaration :=
  (if c.name.isTruthy then [⟨"container-name", c.name.text⟩] else [])
    ++ (if c.type.isTruthy then [⟨"container-type", c.type.text⟩] else [])

end Container

namespace Component

/-- The styles with their class names. -/
def classed (c : Component) : List (String × String × Value) :=
  c.styles.zipIdx.map fun ((key, style), i) => (key, Name.ofStyle key i, style)

/-- The rule of the container, if there is something to declare. -/
def containerRules (c : Component) (settings : Settings) : List Rule :=
  match c.container with
  | none => []
  | some container =>
    Rule.ofDeclarations ("." ++ settings.containerSelector) container.declarations

/-- The rules of one style. -/
def styleRules (className : String) (style : Value) : List Rule :=
  match style with
  | .object members => (Block.ofMembers members).rules ("." ++ className)
  | _ => []

/-- The findings of one style. -/
def styleFindings (key : String) (style : Value) : List Finding :=
  match style with
  | .object members => (Block.ofMembers members).findings [key]
  | _ => [.fault ⟨.styleNotObject key, ["styles"]⟩]

/-- All rules of the component, the container's first. -/
def rules (c : Component) (settings : Settings) : List Rule :=
  c.containerRules settings
    ++ c.classed.flatMap fun (_, className, style) => styleRules className style

/-- The findings of all styles. -/
def findings (c : Component) : List Finding :=
  c.styles.flatMap fun (key, style) => styleFindings key style

/-- The style sheet of a component with these rules. -/
def sheet (c : Component) (settings : Settings) (rules : List Rule) : Compiled where
  classes := c.classed.map fun (key, className, _) => (key, className)
  css := c.layer.wrap (settings.ruleSeparator.intercalate (rules.map Rule.text))

/-- Compiles a component. -/
def compile (c : Component) (settings : Settings := {}) : Report Compiled :=
  let rules := c.rules settings
  (Report.ofFindings c.findings (c.sheet settings rules)).andNote
    (.compiled c.styles.length rules.length c.layer)

/-- Reads a component from a document and compiles it. -/
def compileDocument (document : Value) (settings : Settings := {}) : Report Compiled :=
  (Report.ofExcept (ofDocument document)).bind (·.compile settings)

/-- Puts a component together and compiles it. -/
def compileParts (styles layer : Value) (container : Option Container)
    (settings : Settings := {}) : Report Compiled :=
  (Report.ofExcept (ofParts styles layer container)).bind (·.compile settings)

/-- Compiles a component that may have a container of its own name. -/
def compileNamed (settings : Settings) (name styles : Value) (inContainer : Bool := true)
    (layer : Value := .null) : Report Compiled :=
  (Report.ofExcept (named settings name styles inContainer layer)).bind (·.compile settings)

/-- Compiles a component that responds to the width of its container: it has one, and no layer is
named for it. -/
def compileResponsive (settings : Settings) (name styles : Value) : Report Compiled :=
  compileNamed settings name styles

end Component

end Cascade
