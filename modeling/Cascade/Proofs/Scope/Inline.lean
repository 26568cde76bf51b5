import Cascade.Proofs.Scope.Run
import Cascade.Scope.Request

/-!
# Blocks written out

A body with blocks does what the body does in which every block is written out: the push that
opens it, its steps, the pop that closes it. `Step.flat` writes a body out, and `runAll_flat` says
that its run leads to the same session and gives the same answers, one after the other.

A step that is no block touches the scopes with one move or not at all (`Step.move?`). The moves
of a body are thus a plain list, and `scopes_runAll` carries facts about moves over to bodies.
-/

namespace Cascade

namespace Step

/-! ## Writing out -/

mutual

/-- Writes a step out, with `opening` and `closing` for the two ends of a block. -/
def spell (opening closing : List Step) : Step → List Step
  | bracket steps _ => opening ++ spellAll opening closing steps ++ closing
  | step => [step]
termination_by structural step => step

def spellAll (opening closing : List Step) : List Step → List Step
  | [] => []
  | step :: rest => spell opening closing step ++ spellAll opening closing rest
termination_by structural steps => steps

end

/-- A body with its blocks written out. -/
def flat (body : List Step) : List Step :=
  spellAll [push] [pop] body

/-- The steps that stand in a body, in whatever block, without the ends of the blocks. -/
def calls (body : List Step) : List Step :=
  spellAll [] [] body

/-- The name and the style text that a step asks a style element for. -/
def tagCall? : Step → Option (String × String)
  | tag _ name css => some (name, css)
  | tagDocument name document =>
    match (Component.compileDocument document).outcome with
    | .ok compiled => some (name, compiled.css)
    | .error _ => none
  | _ => none

/-- The key that a step asks the innermost scope for. -/
def key? : Step → Option String
  | record key => some key
  | step => step.tagCall?.bind fun (name, css) =>
      if css.isEmpty then none else some (Scopes.styleKey name css)

/-- What a step that is no block does to the scopes. -/
def move? : Step → Option Move
  | push => some .push
  | pop => some .pop
  | thread new => some (.thread new)
  | task new => some (.task new)
  | step => step.key?.map .record

/-- The moves of a step, those of a block with its two ends. -/
def moves (step : Step) : List Move :=
  (spell [push] [pop] step).filterMap move?

def movesAll (body : List Step) : List Move :=
  (flat body).filterMap move?

@[simp] theorem movesAll_nil : movesAll [] = [] := rfl

@[simp] theorem movesAll_cons (step : Step) (rest : List Step) :
    movesAll (step :: rest) = step.moves ++ movesAll rest :=
  List.filterMap_append

theorem moves_eq_toList {step : Step} (h : spell [push] [pop] step = [step]) :
    step.moves = step.move?.toList := by
  rw [moves, h]
  cases hmove : step.move? <;> simp [hmove]

@[simp] theorem moves_bracket (steps : List Step) (raises : Bool) :
    (bracket steps raises).moves = .push :: (movesAll steps ++ [.pop]) := by
  simp [moves, spell, movesAll, flat, move?]

mutual

/-- What is written out has no blocks left. -/
theorem spell_of_mem_spell {p : Step} :
    ∀ {step : Step}, p ∈ spell [push] [pop] step → spell [push] [pop] p = [p]
  | bracket steps raises, h => by
    rw [spell, List.mem_append, List.mem_append] at h
    rcases h with (h | h) | h
    · rw [List.mem_singleton.mp h]
      rfl
    · exact spell_of_mem_flat h
    · rw [List.mem_singleton.mp h]
      rfl
  | push, h | pop, h | depth, h | record _, h | tag .., h | tagDocument .., h | thread _, h
  | task _, h => by
    rw [List.mem_singleton.mp h]
    rfl

theorem spell_of_mem_flat {p : Step} :
    ∀ {body : List Step}, p ∈ flat body → spell [push] [pop] p = [p]
  | step :: rest, h => by
    rw [flat, spellAll, List.mem_append] at h
    rcases h with h | h
    · exact spell_of_mem_spell h
    · exact spell_of_mem_flat h

end

theorem flat_eq_self {steps : List Step} (h : ∀ p ∈ steps, spell [push] [pop] p = [p]) :
    flat steps = steps := by
  induction steps with
  | nil => rfl
  | cons step rest ih =>
    obtain ⟨hstep, hrest⟩ := List.forall_mem_cons.mp h
    rw [flat, spellAll, hstep, ← flat, ih hrest]
    rfl

end Step

namespace Answer

mutual

/-- The answers of a step with blocks written out; the two ends of a block have an answer each. -/
def flat : Answer → List Answer
  | block inner _ => done :: flatAll inner ++ [done]
  | answer => [answer]
termination_by structural answer => answer

def flatAll : List (Answer × Nat) → List Answer
  | [] => []
  | (answer, _) :: rest => flat answer ++ flatAll rest
termination_by structural answers => answers

end

end Answer

/-! ## Moves -/

namespace Scopes

/-- The scopes after some moves of context `c`. -/
def after (c : Context) (s : Scopes) (moves : List Move) : Scopes :=
  moves.foldl (fun s move => move.next c s) s

variable (c : Context) (s : Scopes)

@[simp] theorem after_nil : s.after c [] = s := rfl

@[simp] theorem after_cons (move : Move) (rest : List Move) :
    s.after c (move :: rest) = (move.next c s).after c rest := rfl

@[simp] theorem after_append (a b : List Move) : s.after c (a ++ b) = (s.after c a).after c b :=
  List.foldl_append

theorem opened_le_after (moves : List Move) : s.opened ≤ (s.after c moves).opened := by
  induction moves generalizing s with
  | nil => exact Nat.le_refl s.opened
  | cons move rest ih => exact Nat.le_trans opened_le_next (ih (move.next c s))

theorem tag_eq (name css : String) :
    s.tag c name css =
      if css.isEmpty then ("", s)
      else
        (if (s.record c (styleKey name css)).1 then "<style>" ++ css ++ "</style>" else "",
          (s.record c (styleKey name css)).2) := by
  unfold tag
  split
  · rfl
  · rcases s.record c (styleKey name css) with ⟨yes, scopes⟩
    cases yes <;> rfl

end Scopes

namespace Session

theorem scopes_tag (s : Session) (c : Context) (name css : String) :
    (s.tag c name css).2.scopes = (s.scopes.tag c name css).2 := rfl

theorem tagDocument_of_ok {document : Value} {compiled : Compiled}
    (h : (Component.compileDocument document).outcome = .ok compiled) (s : Session) (c : Context)
    (name : String) :
    s.tagDocument c name document =
      (s.note (Component.compileDocument document).notices).tag c name compiled.css := by
  simp only [tagDocument, h]

theorem tagDocument_of_error {document : Value} {fault : Fault}
    (h : (Component.compileDocument document).outcome = .error fault) (s : Session) (c : Context)
    (name : String) :
    s.tagDocument c name document =
      (.refused fault, s.note (Component.compileDocument document).notices) := by
  simp only [tagDocument, h]

end Session

namespace Step

theorem scopes_run_tag (c : Context) (s : Session) (name css : String) :
    (s.tag c name css).2.scopes =
      s.scopes.after c
        (if css.isEmpty then none else some (Move.record (Scopes.styleKey name css))).toList := by
  rw [Session.scopes_tag, Scopes.tag_eq]
  split <;> rfl

mutual

/-- A step leads to the scopes that its moves lead to. -/
theorem scopes_run (c : Context) :
    ∀ (step : Step) (s : Session), (step.run c s).2.scopes = s.scopes.after c step.moves
  | push, s => rfl
  | pop, s => s.scopes_pop c
  | depth, s => rfl
  | record key, s => rfl
  | tag source name css, s => by
    rw [run, Session.answered, scopes_run_tag, moves_eq_toList rfl]
    by_cases h : css = "" <;> simp [move?, key?, tagCall?, h]
  | tagDocument name document, s => by
    rw [run, Session.answered, moves_eq_toList rfl]
    cases h : (Component.compileDocument document).outcome with
    | error fault =>
      rw [Session.tagDocument_of_error h]
      simp [move?, key?, tagCall?, h, Session.note]
    | ok compiled =>
      rw [Session.tagDocument_of_ok h, scopes_run_tag]
      by_cases hcss : compiled.css = "" <;>
        simp [move?, key?, tagCall?, h, hcss, Session.note]
  | bracket steps raises, s => by
    have h := scopes_runAll c steps (s.push c)
    rw [moves_bracket, Scopes.after_cons, Scopes.after_append, Move.next]
    show ((runAll c (s.push c) steps).2.pop c).scopes = _
    rw [Session.scopes_pop, h]
    rfl
  | thread new, s => rfl
  | task new, s => rfl

/-- A body leads to the scopes that its moves lead to. -/
theorem scopes_runAll (c : Context) :
    ∀ (steps : List Step) (s : Session),
      (runAll c s steps).2.scopes = s.scopes.after c (movesAll steps)
  | [], s => rfl
  | step :: rest, s => by
    rw [runAll, scopes_runAll c rest, scopes_run c step, movesAll_cons, Scopes.after_append]

end

/-! ## Running what is written out -/

theorem runAll_cons (c : Context) (s : Session) (step : Step) (rest : List Step) :
    runAll c s (step :: rest) =
      ((step.run c s).1 :: (runAll c (step.run c s).2 rest).1,
        (runAll c (step.run c s).2 rest).2) := rfl

theorem runAll_append (c : Context) (s : Session) (a b : List Step) :
    runAll c s (a ++ b) =
      ((runAll c s a).1 ++ (runAll c (runAll c s a).2 b).1, (runAll c (runAll c s a).2 b).2) := by
  induction a generalizing s with
  | nil => rfl
  | cons step rest ih => simp only [List.cons_append, runAll, ih]

mutual

theorem runAll_spell (c : Context) :
    ∀ (step : Step) (s : Session),
      (runAll c s (spell [push] [pop] step)).2 = (step.run c s).2
      ∧ (runAll c s (spell [push] [pop] step)).1.map Prod.fst = (step.run c s).1.1.flat
  | bracket steps raises, s => by
    obtain ⟨hsession, hanswers⟩ := runAll_flat c steps (s.push c)
    rw [flat] at hsession hanswers
    have hpush : (run c s push).2 = s.push c := rfl
    rw [spell, List.singleton_append, List.cons_append, runAll_cons, runAll_append, hpush,
      hsession]
    refine ⟨rfl, ?_⟩
    rw [List.map_cons, List.map_append, hanswers]
    rfl
  | push, s => ⟨rfl, rfl⟩
  | pop, s => ⟨rfl, rfl⟩
  | depth, s => ⟨rfl, rfl⟩
  | record key, s => ⟨rfl, rfl⟩
  | tag source name css, s => ⟨rfl, rfl⟩
  | tagDocument name document, s => by
    refine ⟨rfl, ?_⟩
    show [(s.tagDocument c name document).1] = (s.tagDocument c name document).1.flat
    cases h : (Component.compileDocument document).outcome with
    | error fault => rw [Session.tagDocument_of_error h]; rfl
    | ok compiled => rw [Session.tagDocument_of_ok h]; rfl
  | thread new, s => ⟨rfl, rfl⟩
  | task new, s => ⟨rfl, rfl⟩

/-- A body does what it does with its blocks written out. -/
theorem runAll_flat (c : Context) :
    ∀ (steps : List Step) (s : Session),
      (runAll c s (flat steps)).2 = (runAll c s steps).2
      ∧ (runAll c s (flat steps)).1.map Prod.fst = Answer.flatAll (runAll c s steps).1
  | [], s => ⟨rfl, rfl⟩
  | step :: rest, s => by
    obtain ⟨hsession, hanswers⟩ := runAll_spell c step s
    obtain ⟨hsession', hanswers'⟩ := runAll_flat c rest (step.run c s).2
    rw [flat] at hsession' hanswers'
    rw [flat, spellAll, runAll_append, runAll_cons, hsession]
    refine ⟨hsession', ?_⟩
    rw [List.map_append, hanswers, hanswers', Answer.flatAll]

end

end Step

/-! ## Requests -/

namespace Action

/-- The steps that are run: those before the first error. -/
def executed : List Action → List Step
  | .step one :: rest => one :: executed rest
  | _ => []

theorem runAll_fst (c : Context) (s : Session) (actions : List Action) :
    (runAll c s actions).1 = (Step.runAll c s (executed actions)).1 := by
  induction actions generalizing s with
  | nil => rfl
  | cons action rest ih =>
    cases action with
    | boom => rfl
    | step one => rw [executed, Step.runAll_cons, ← ih]; rfl

theorem session_runAll (c : Context) (s : Session) (actions : List Action) :
    (runAll c s actions).2.2 = (Step.runAll c s (executed actions)).2 := by
  induction actions generalizing s with
  | nil => rfl
  | cons action rest ih =>
    cases action with
    | boom => rfl
    | step one => rw [executed, Step.runAll_cons, ← ih]; rfl

/-- Whether an action fails does not depend on what has gone before. -/
theorem failed_runAll (c : Context) (s t : Session) (actions : List Action) :
    (runAll c s actions).2.1 = (runAll c t actions).2.1 := by
  induction actions generalizing s t with
  | nil => rfl
  | cons action rest ih =>
    cases action with
    | boom => rfl
    | step one => exact ih _ _

end Action

end Cascade
