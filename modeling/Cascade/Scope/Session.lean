import Cascade.Component.Compile
import Cascade.Scope.Basic

/-!
# Sessions

What a program does with style scopes, as data: steps that run one after the other, each in a
context. A bracket is a block with a scope of its own, which is closed however the block ends.
Every step gives an answer and the depth behind it.
-/

namespace Cascade

/-- From where a style element is asked for. All ways lead to the same answer. -/
inductive TagSource where
  | call | template | extension
  deriving DecidableEq, Repr

inductive Step where
  | push
  | pop
  | depth
  | record (key : String)
  | tag (source : TagSource) (name css : String)
  /-- Compiles the component of a document and asks for its style element. -/
  | tagDocument (name : String) (document : Value)
  /-- Runs steps in a scope of their own; with `raises`, the block ends in an error. -/
  | bracket (steps : List Step) (raises : Bool)
  | thread (new : Context)
  | task (new : Context)

inductive Answer where
  | done
  | depth (n : Nat)
  | fresh (yes : Bool)
  | markup (element : String)
  | refused (fault : Fault)
  /-- The answers inside a bracket with the depths behind them. -/
  | block (inner : List (Answer × Nat)) (raised : Bool)

/-- The scopes of all contexts, and the log so far. -/
structure Session where
  scopes : Scopes := {}
  log : List Notice := []

namespace Session

def note (s : Session) (notices : List Notice) : Session :=
  { s with log := s.log ++ notices }

def push (s : Session) (c : Context) : Session :=
  { s with scopes := s.scopes.push c }.note [.scopePushed (s.scopes.depth c + 1)]

def pop (s : Session) (c : Context) : Session :=
  match s.scopes.stack c with
  | [] => s.note [.noScope]
  | _ :: rest => { s with scopes := s.scopes.pop c }.note [.scopePopped rest.length]

def tag (s : Session) (c : Context) (name css : String) : Answer × Session :=
  let (element, scopes) := s.scopes.tag c name css
  (.markup element, { s with scopes })

/-- Compiles a document, and asks for its style element if that succeeds. -/
def tagDocument (s : Session) (c : Context) (name : String) (document : Value) :
    Answer × Session :=
  let report := Component.compileDocument document
  let s := s.note report.notices
  match report.outcome with
  | .ok compiled => s.tag c name compiled.css
  | .error fault => (.refused fault, s)

/-- An answer with the depth that context `c` has behind it. -/
def answered (c : Context) (result : Answer × Session) : (Answer × Nat) × Session :=
  ((result.1, result.2.scopes.depth c), result.2)

end Session

namespace Step

mutual

/-- Runs a step in context `c`. The depth behind a step that makes a context is that of the new
one. -/
def run (c : Context) (s : Session) : Step → (Answer × Nat) × Session
  | push => Session.answered c (.done, s.push c)
  | pop => Session.answered c (.done, s.pop c)
  | depth => Session.answered c (.depth (s.scopes.depth c), s)
  | record key =>
    let (yes, scopes) := s.scopes.record c key
    Session.answered c (.fresh yes, { s with scopes })
  | tag _ name css => Session.answered c (s.tag c name css)
  | tagDocument name document => Session.answered c (s.tagDocument c name document)
  | bracket steps raises =>
    let (inner, s) := runAll c (s.push c) steps
    Session.answered c (.block inner raises, s.pop c)
  | thread new => Session.answered new (.done, { s with scopes := s.scopes.thread new })
  | task new => Session.answered new (.done, { s with scopes := s.scopes.task c new })
termination_by structural step => step

/-- Runs steps one after the other in context `c`. -/
def runAll (c : Context) (s : Session) : List Step → List (Answer × Nat) × Session
  | [] => ([], s)
  | step :: rest =>
    let (answer, s) := run c s step
    let (answers, s) := runAll c s rest
    (answer :: answers, s)
termination_by structural steps => steps

end

end Step

namespace Session

/-- Runs steps one after the other, each in its own context. -/
def run (s : Session) : List (Context × Step) → List (Answer × Nat) × Session
  | [] => ([], s)
  | (c, step) :: rest =>
    let (answer, s) := step.run c s
    let (answers, s) := s.run rest
    (answer :: answers, s)

end Session

end Cascade
