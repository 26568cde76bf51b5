import Cascade.Proofs.Scope.Inline

/-!
# Depths are a matter of counting

A context tells its depth after every step. A counter that knows neither scopes nor keys tells the
same (`depths_run`): it begins with the scopes that the context has, and moves with pushes and
pops alone.
-/

namespace Cascade

namespace Answer

mutual

/-- All depths that an answer tells. -/
def depths : Answer → List Nat
  | depth n => [n]
  | block inner _ => depthsAll inner
  | _ => []
termination_by structural answer => answer

/-- All depths that answers tell, with those behind them. -/
def depthsAll : List (Answer × Nat) → List Nat
  | [] => []
  | (answer, n) :: rest => depths answer ++ n :: depthsAll rest
termination_by structural answers => answers

end

theorem depthsAll_cons (answer : Answer × Nat) (rest : List (Answer × Nat)) :
    depthsAll (answer :: rest) = depthsAll [answer] ++ depthsAll rest := by
  simp [depthsAll]

end Answer

namespace Step

mutual

/-- What a counter at `n` shows for a step, and where it ends. Pushes and pops move it, also those
at the ends of a block; a new thread begins with a counter of its own. -/
def count (n : Nat) : Step → List Nat × Nat
  | push => ([n + 1], n + 1)
  | pop => ([n - 1], n - 1)
  | depth => ([n, n], n)
  | bracket steps _ => ((countAll (n + 1) steps).1 ++ [(countAll (n + 1) steps).2 - 1],
      (countAll (n + 1) steps).2 - 1)
  | thread _ => ([0], n)
  | _ => ([n], n)
termination_by structural step => step

def countAll (n : Nat) : List Step → List Nat × Nat
  | [] => ([], n)
  | step :: rest => ((count n step).1 ++ (countAll (count n step).2 rest).1,
      (countAll (count n step).2 rest).2)
termination_by structural steps => steps

end

theorem depth_tag (s : Session) (c : Context) (name css : String) :
    (s.tag c name css).2.scopes.depth c = s.scopes.depth c := by
  rw [Session.scopes_tag, Scopes.tag_eq]
  split
  · rfl
  · exact s.scopes.depth_record c c _

variable {c : Context}

mutual

/-- The counter shows what the step answers, unless the step makes the context anew. -/
theorem depths_run :
    ∀ (step : Step) (s : Session), Move.thread c ∉ step.moves →
      Answer.depthsAll [(step.run c s).1] = (count (s.scopes.depth c) step).1
      ∧ (step.run c s).2.scopes.depth c = (count (s.scopes.depth c) step).2
  | push, s, _ => by
    have hdepth : (s.push c).scopes.depth c = s.scopes.depth c + 1 := s.scopes.depth_push c
    simp only [run, Session.answered, hdepth]
    exact ⟨rfl, rfl⟩
  | pop, s, _ => by
    have hdepth : (s.pop c).scopes.depth c = s.scopes.depth c - 1 := by
      rw [Session.scopes_pop, Scopes.depth_pop]
    simp only [run, Session.answered, hdepth]
    exact ⟨rfl, rfl⟩
  | depth, s, _ => ⟨rfl, rfl⟩
  | record key, s, _ => by
    simp only [run, Session.answered, Scopes.depth_record]
    exact ⟨rfl, rfl⟩
  | tag source name css, s, _ => by
    simp only [run, Session.answered, depth_tag]
    exact ⟨rfl, rfl⟩
  | tagDocument name document, s, _ => by
    cases h : (Component.compileDocument document).outcome with
    | error fault =>
      simp only [run, Session.answered, Session.tagDocument_of_error h]
      exact ⟨rfl, rfl⟩
    | ok compiled =>
      simp only [run, Session.answered, Session.tagDocument_of_ok h, depth_tag]
      exact ⟨rfl, rfl⟩
  | bracket steps raises, s, hmade => by
    rw [moves_bracket] at hmade
    obtain ⟨hanswers, hdepth⟩ := depths_runAll steps (s.push c) fun h =>
      hmade (List.mem_cons_of_mem _ (List.mem_append_left _ h))
    have hpush : (s.push c).scopes.depth c = s.scopes.depth c + 1 := s.scopes.depth_push c
    rw [hpush] at hanswers hdepth
    have hlast : ((runAll c (s.push c) steps).2.pop c).scopes.depth c =
        (countAll (s.scopes.depth c + 1) steps).2 - 1 := by
      rw [Session.scopes_pop, Scopes.depth_pop, hdepth]
    simp only [run, Session.answered, hlast, Answer.depthsAll, Answer.depths, hanswers, count,
      and_self]
  | thread new, s, hmade => by
    have hnew : new ≠ c := by
      rintro rfl
      exact hmade List.mem_cons_self
    simp [run, Session.answered, Answer.depthsAll, Answer.depths, count, Scopes.thread,
      Scopes.depth, hnew.symm]
  | task new, s, _ => by
    simp [run, Session.answered, Answer.depthsAll, Answer.depths, count, Scopes.task,
      Scopes.depth]

theorem depths_runAll :
    ∀ (steps : List Step) (s : Session), Move.thread c ∉ movesAll steps →
      Answer.depthsAll (runAll c s steps).1 = (countAll (s.scopes.depth c) steps).1
      ∧ (runAll c s steps).2.scopes.depth c = (countAll (s.scopes.depth c) steps).2
  | [], s, _ => ⟨rfl, rfl⟩
  | step :: rest, s, hmade => by
    rw [movesAll_cons, List.mem_append, not_or] at hmade
    obtain ⟨hanswer, hdepth⟩ := depths_run step s hmade.1
    obtain ⟨hanswers, hdepths⟩ := depths_runAll rest (step.run c s).2 hmade.2
    rw [hdepth] at hanswers hdepths
    rw [runAll_cons, Answer.depthsAll_cons, hanswer, hanswers, hdepths, countAll]
    exact ⟨rfl, rfl⟩

end

end Step

end Cascade
