import Cascade.Scope.Session

/-!
# Requests

A server answers requests one after the other in one context. Each request opens a scope before
its actions, and is marked with having done so. When it ends, a marked request closes one scope,
also when an action has failed. A request that is answered before its scope is opened runs no
action; it is not marked, so it closes nothing.
-/

namespace Cascade

inductive Action where
  | step (step : Step)
  /-- An error that ends the request. -/
  | boom

/-- What happens to a server: a request, or a step between requests. -/
inductive Visit where
  | step (step : Step)
  | request (early : Bool) (actions : List Action)

inductive VisitAnswer where
  | step (answer : Answer)
  | request (status : Nat) (actions : List (Answer × Nat))

namespace Action

/-- Runs actions until one fails: the answers so far, and whether one failed. -/
def runAll (c : Context) (s : Session) : List Action → List (Answer × Nat) × Bool × Session
  | [] => ([], false, s)
  | .boom :: _ => ([], true, s)
  | .step one :: rest =>
    let (answer, s) := one.run c s
    let (answers, failed, s) := runAll c s rest
    (answer :: answers, failed, s)

end Action

namespace Request

/-- Opens the scope of a request, which is marked with it. -/
def openScope (c : Context) (s : Session) : Bool × Session :=
  (true, s.push c)

/-- Closes one scope, if the request is marked with having opened one. -/
def closeScope (c : Context) (marked : Bool) (s : Session) : Session :=
  if marked then s.pop c else s

/-- Answers a request: its status and the answers of its actions, and whether it is marked. -/
def answer (c : Context) (s : Session) (early : Bool) (actions : List Action) :
    (Nat × List (Answer × Nat)) × Bool × Session :=
  if early then ((200, []), false, s)
  else
    let (marked, s) := openScope c s
    let (answers, failed, s) := Action.runAll c s actions
    ((if failed then 500 else 200, answers), marked, s)

end Request

namespace Visit

def run (c : Context) (s : Session) : Visit → (VisitAnswer × Nat) × Session
  | .step one =>
    let ((answer, depth), s) := one.run c s
    ((.step answer, depth), s)
  | .request early actions =>
    let ((status, answers), marked, s) := Request.answer c s early actions
    let s := Request.closeScope c marked s
    ((.request status answers, s.scopes.depth c), s)

def runAll (c : Context) (s : Session) : List Visit → List (VisitAnswer × Nat) × Session
  | [] => ([], s)
  | visit :: rest =>
    let (answer, s) := visit.run c s
    let (answers, s) := runAll c s rest
    (answer :: answers, s)

end Visit

end Cascade
