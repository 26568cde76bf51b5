import Cascade.Checksum

/-!
# Style scopes

While a response is written, each style is to be emitted once. A scope remembers the keys that it
has seen. Scopes nest: every context (a thread, a task) has a stack of open scopes, and asks the
innermost one alone. A context that is copied from another shares the open scopes themselves, so
what one records the other sees; the two stacks then grow and shrink apart.

A scope is identified by the number of scopes opened before it, in whatever context.
-/

namespace Cascade

abbrev Context := String

structure Scopes where
  /-- How many scopes have been opened so far; also the identity of the next one. -/
  opened : Nat := 0
  /-- The keys that a scope has seen. -/
  seen : Nat → List String := fun _ => []
  /-- The open scopes of a context, innermost first. -/
  stack : Context → List Nat := fun _ => []

namespace Scopes

/-- Gives a context another stack. -/
def setStack (s : Scopes) (c : Context) (stack : List Nat) : Scopes :=
  { s with stack := fun d => if d = c then stack else s.stack d }

/-- Gives a scope other keys. -/
def setSeen (s : Scopes) (scope : Nat) (keys : List String) : Scopes :=
  { s with seen := fun i => if i = scope then keys else s.seen i }

/-- How many scopes a context has open. -/
def depth (s : Scopes) (c : Context) : Nat :=
  (s.stack c).length

/-- Opens a new, empty scope. -/
def push (s : Scopes) (c : Context) : Scopes :=
  { (s.setSeen s.opened []).setStack c (s.opened :: s.stack c) with opened := s.opened + 1 }

/-- Closes the innermost scope; with none open, nothing happens. -/
def pop (s : Scopes) (c : Context) : Scopes :=
  s.setStack c (s.stack c).tail

/-- Whether the style with this key is to be emitted, which its scope then remembers. Outside of
all scopes every style is. -/
def record (s : Scopes) (c : Context) (key : String) : Bool × Scopes :=
  match s.stack c with
  | [] => (true, s)
  | scope :: _ =>
    if key ∈ s.seen scope then (false, s)
    else (true, s.setSeen scope (key :: s.seen scope))

/-- A new context without scopes. -/
def thread (s : Scopes) (new : Context) : Scopes :=
  s.setStack new []

/-- A new context with the open scopes of another. -/
def task (s : Scopes) (parent new : Context) : Scopes :=
  s.setStack new (s.stack parent)

/-- The key of a style: the component's name and the checksum of its text. Class names play no
part, since they differ from one compilation to the next. -/
def styleKey (name css : String) : String :=
  name ++ ":" ++ Checksum.ofCss css

/-- The `<style>` element for a component's style text, or nothing if the text is empty or its
scope has seen it. -/
def tag (s : Scopes) (c : Context) (name css : String) : String × Scopes :=
  if css.isEmpty then ("", s)
  else
    match s.record c (styleKey name css) with
    | (true, s) => ("<style>" ++ css ++ "</style>", s)
    | (false, s) => ("", s)

end Scopes

end Cascade
