import Cascade.Layer
import Cascade.Text.Quoted

/-!
# Notices

What the library tells its log while it works. None of it changes a result.
-/

namespace Cascade

inductive Notice where
  /-- A media condition that is neither a breakpoint's name nor in parentheses. -/
  | unknownBreakpoint (condition : String)
  /-- A component was compiled. -/
  | compiled (styles rules : Nat) (layer : Layer)
  /-- A style scope was opened; the depth is the new one. -/
  | scopePushed (depth : Nat)
  /-- A style scope was closed; the depth is the new one. -/
  | scopePopped (depth : Nat)
  /-- A style scope was to be closed and none was open. -/
  | noScope
  deriving DecidableEq, Repr

namespace Notice

def level : Notice → String
  | noScope => "WARNING"
  | _ => "DEBUG"

/-- The name of the log that the notice goes to. -/
def source : Notice → String
  | unknownBreakpoint _ => "modern_css.compiler"
  | compiled .. => "modern_css.compiler"
  | scopePushed _ => "modern_css.registry"
  | scopePopped _ => "modern_css.registry"
  | noScope => "modern_css.registry"

def message : Notice → String
  | unknownBreakpoint condition =>
    "Unknown breakpoint " ++ Text.quoted condition ++ ", treating it as min-width"
  | compiled styles rules layer =>
    "Compiled " ++ toString styles ++ " style(s) into " ++ toString rules ++
      " rule(s) in layer " ++ layer.name
  | scopePushed depth => "Pushed style scope (depth=" ++ toString depth ++ ")"
  | scopePopped depth => "Popped style scope (depth=" ++ toString depth ++ ")"
  | noScope => "pop_style_scope() called with no active style scope"

/-- The notice as a line of the log. -/
def line (n : Notice) : String :=
  n.level ++ " " ++ n.source ++ ": " ++ n.message

end Notice

end Cascade
