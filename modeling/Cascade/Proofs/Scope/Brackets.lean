import Cascade.Proofs.Scope.Inline

/-!
# What brackets give back

The end of a bracket closes the scope that is innermost then, whichever that is, and not the one
that the bracket has opened. What it found is given back all the same, as long as its body never
goes below the bracket's own scope: the scopes from before stay where they were, with the keys
they had, and only surplus scopes of the body are left above them.

`Frame` says this of a single moment. It goes through every move that is made while a newer scope
is open (`Frame.next`), so through a body and the pop at its end. The main statement is
`brackets_restore`, for blocks and for requests.
-/

namespace Cascade

/-! ## Bodies that stay above -/

/-- While the body runs, written out block by block, the depth never falls below the one that it
starts with. -/
def Step.StaysOpen (c : Context) (s : Session) (body : List Step) : Prop :=
  ∀ n ≤ (flat body).length,
    s.scopes.depth c ≤ (runAll c s ((flat body).take n)).2.scopes.depth c

namespace Scopes

/-- The depth is at least `floor` before, between and after the moves. -/
def StaysAbove (c : Context) (floor : Nat) : Scopes → List Move → Prop
  | s, [] => floor ≤ s.depth c
  | s, move :: rest => floor ≤ s.depth c ∧ StaysAbove c floor (move.next c s) rest

variable {c : Context} {floor : Nat} {s : Scopes}

theorem StaysAbove.le {moves : List Move} (h : s.StaysAbove c floor moves) :
    floor ≤ s.depth c := by
  cases moves with
  | nil => exact h
  | cons move rest => exact h.1

theorem StaysAbove.last {moves : List Move} (h : s.StaysAbove c floor moves) :
    floor ≤ (s.after c moves).depth c := by
  induction moves generalizing s with
  | nil => exact h
  | cons move rest ih => exact ih h.2

theorem staysAbove_of_take {steps : List Step}
    (h : ∀ n ≤ steps.length,
      floor ≤ (s.after c ((steps.take n).filterMap Step.move?)).depth c) :
    s.StaysAbove c floor (steps.filterMap Step.move?) := by
  induction steps generalizing s with
  | nil => exact h 0 (Nat.le_refl 0)
  | cons step rest ih =>
    have hlater : ∀ n ≤ rest.length,
        floor ≤ (s.after c ((step :: rest.take n).filterMap Step.move?)).depth c :=
      fun n hn => h (n + 1) (Nat.succ_le_succ hn)
    cases hmove : step.move? with
    | none =>
      simp only [List.filterMap_cons, hmove] at hlater ⊢
      exact ih hlater
    | some move =>
      simp only [List.filterMap_cons, hmove, after_cons] at hlater ⊢
      exact ⟨h 0 (Nat.zero_le _), ih hlater⟩

end Scopes

theorem Step.StaysOpen.staysAbove {c : Context} {s : Session} {body : List Step}
    (h : StaysOpen c s body) :
    s.scopes.StaysAbove c (s.scopes.depth c) (movesAll body) := by
  refine Scopes.staysAbove_of_take fun n hn => ?_
  have htake : flat ((flat body).take n) = (flat body).take n :=
    flat_eq_self fun p hp => spell_of_mem_flat (List.mem_of_mem_take hp)
  have hdepth := h n hn
  rwa [scopes_runAll, movesAll, htake] at hdepth

/-! ## Counting -/

namespace Step

/-- How many pushes stand in a body, in whatever block. -/
def pushes (body : List Step) : Nat :=
  ((calls body).filterMap move?).count .push

/-- How many pops stand in a body, in whatever block. -/
def pops (body : List Step) : Nat :=
  ((calls body).filterMap move?).count .pop

mutual

/-- Each block adds one push and one pop to those that stand in a step. -/
theorem exists_count_moves :
    ∀ step : Step, ∃ blocks,
      step.moves.count .push = pushes [step] + blocks
      ∧ step.moves.count .pop = pops [step] + blocks
  | bracket steps raises => by
    obtain ⟨blocks, hpush, hpop⟩ := exists_count_movesAll steps
    have hcalls : calls [bracket steps raises] = calls steps := by
      simp [calls, spellAll, spell]
    refine ⟨blocks + 1, ?_, ?_⟩
    · rw [moves_bracket, pushes, hcalls, ← pushes]
      simp [hpush]
      omega
    · rw [moves_bracket, pops, hcalls, ← pops]
      simp [hpop]
      omega
  | push | pop | depth | record _ | tag .. | tagDocument .. | thread _ | task _ =>
    ⟨0, rfl, rfl⟩

theorem exists_count_movesAll :
    ∀ body : List Step, ∃ blocks,
      (movesAll body).count .push = pushes body + blocks
      ∧ (movesAll body).count .pop = pops body + blocks
  | [] => ⟨0, rfl, rfl⟩
  | step :: rest => by
    obtain ⟨here, hpush, hpop⟩ := exists_count_moves step
    obtain ⟨later, hpush', hpop'⟩ := exists_count_movesAll rest
    have hcalls : calls (step :: rest) = calls [step] ++ calls rest := by
      simp [calls, spellAll]
    refine ⟨here + later, ?_, ?_⟩
    · rw [movesAll_cons, List.count_append, hpush, hpush', pushes, pushes, pushes, hcalls,
        List.filterMap_append, List.count_append]
      omega
    · rw [movesAll_cons, List.count_append, hpop, hpop', pops, pops, pops, hcalls,
        List.filterMap_append, List.count_append]
      omega

end

end Step

namespace Scopes

/-- A move that does not go below an open scope changes the depth by one, if it is a push or a
pop. -/
theorem depth_next {c : Context} {s : Scopes} {move : Move} (hopen : 0 < s.depth c)
    (hnext : 0 < (move.next c s).depth c) :
    (move.next c s).depth c + [move].count .pop = s.depth c + [move].count .push := by
  cases move with
  | push => simp [Move.next]
  | pop =>
    simp [Move.next]
    omega
  | record key => simp [Move.next, depth_eq_length]
  | thread new =>
    have hne : c ≠ new := by
      rintro rfl
      simp [Move.next, thread, depth_eq_length] at hnext
    simp [Move.next, thread, hne, depth_eq_length]
  | task new =>
    by_cases h : c = new <;> simp [Move.next, task, h, depth_eq_length]

theorem StaysAbove.depth_after {c : Context} {floor : Nat} {s : Scopes} {moves : List Move}
    (h : s.StaysAbove c (floor + 1) moves) :
    (s.after c moves).depth c + moves.count .pop = s.depth c + moves.count .push := by
  induction moves generalizing s with
  | nil => rfl
  | cons move rest ih =>
    have hone := depth_next (Nat.lt_of_lt_of_le (Nat.succ_pos floor) h.1)
      (Nat.lt_of_lt_of_le (Nat.succ_pos floor) h.2.le)
    have hrest := ih h.2
    rw [after_cons, ← List.singleton_append, List.count_append, List.count_append]
    omega

end Scopes

/-! ## What stays as it was -/

namespace Scopes

/-- The open scopes of a context are among those that have been opened. -/
def Sound (s : Scopes) : Prop :=
  ∀ c, ∀ scope ∈ s.stack c, scope < s.opened

/-- `before` shows through `now`: the stack of `c` is what it was with newer scopes on top, and no
scope from before has another key. -/
structure Frame (c : Context) (before now : Scopes) : Prop where
  stack_eq : ∃ newer, now.stack c = newer ++ before.stack c ∧ ∀ n ∈ newer, before.opened ≤ n
  opened_le : before.opened ≤ now.opened
  seen_eq : ∀ n < before.opened, now.seen n = before.seen n

namespace Frame

variable {c : Context} {before now : Scopes}

theorem refl (c : Context) (s : Scopes) : Frame c s s :=
  ⟨⟨[], rfl, List.forall_mem_nil _⟩, Nat.le_refl _, fun _ _ => rfl⟩

theorem push (h : Frame c before now) : Frame c before (now.push c) := by
  obtain ⟨⟨newer, hstack, hnewer⟩, hopened, hseen⟩ := h
  refine ⟨⟨now.opened :: newer, ?_, ?_⟩, Nat.le_succ_of_le hopened, ?_⟩
  · rw [stack_push, if_pos rfl, hstack, List.cons_append]
  · exact List.forall_mem_cons.mpr ⟨hopened, hnewer⟩
  · intro n hn
    rw [seen_push, if_neg (by omega), hseen n hn]

/-- A newer scope is open, so a pop closes one of those. -/
theorem pop (h : Frame c before now) (hopen : before.depth c < now.depth c) :
    Frame c before (now.pop c) := by
  obtain ⟨⟨newer, hstack, hnewer⟩, hopened, hseen⟩ := h
  cases newer with
  | nil =>
    rw [depth_eq_length, depth_eq_length, hstack] at hopen
    exact absurd hopen (Nat.lt_irrefl _)
  | cons n newer =>
    refine ⟨⟨newer, ?_, (List.forall_mem_cons.mp hnewer).2⟩, hopened, hseen⟩
    rw [stack_pop, if_pos rfl, hstack, List.cons_append, List.tail_cons]

/-- A newer scope is open, so a key is recorded in one of those. -/
theorem record (h : Frame c before now) (hopen : before.depth c < now.depth c) (key : String) :
    Frame c before (now.record c key).2 := by
  obtain ⟨⟨newer, hstack, hnewer⟩, hopened, hseen⟩ := h
  refine ⟨⟨newer, ?_, hnewer⟩, ?_, ?_⟩
  · rw [stack_record, hstack]
  · rw [opened_record]
    exact hopened
  · intro n hn
    rw [seen_record_of_ne, hseen n hn]
    cases newer with
    | nil =>
      rw [depth_eq_length, depth_eq_length, hstack] at hopen
      exact absurd hopen (Nat.lt_irrefl _)
    | cons m newer =>
      have hm : before.opened ≤ m := hnewer m List.mem_cons_self
      rw [hstack, List.cons_append, List.head?_cons, ne_eq, Option.some.injEq]
      omega

theorem next (h : Frame c before now) (hopen : before.depth c < now.depth c) {move : Move}
    (hnext : before.depth c ≤ (move.next c now).depth c) : Frame c before (move.next c now) := by
  cases move with
  | push => exact h.push
  | pop => exact h.pop hopen
  | record key => exact h.record hopen key
  | thread new =>
    obtain ⟨⟨newer, hstack, hnewer⟩, hopened, hseen⟩ := h
    by_cases hnew : c = new
    · -- Made anew, the context has no scopes, so it had none before.
      subst hnew
      have hnil : before.stack c = [] := by
        simpa [depth_eq_length, Move.next, thread] using hnext
      refine ⟨⟨[], ?_, List.forall_mem_nil _⟩, hopened, hseen⟩
      simp [Move.next, thread, hnil]
    · refine ⟨⟨newer, ?_, hnewer⟩, hopened, hseen⟩
      rw [Move.next, thread, stack_setStack, if_neg hnew, hstack]
  | task new =>
    obtain ⟨⟨newer, hstack, hnewer⟩, hopened, hseen⟩ := h
    refine ⟨⟨newer, ?_, hnewer⟩, hopened, hseen⟩
    rw [Move.next, task, stack_setStack, hstack, ite_self]

theorem suffix (h : Frame c before now) : before.stack c <:+ now.stack c := by
  obtain ⟨newer, hstack, -⟩ := h.stack_eq
  exact ⟨newer, hstack.symm⟩

theorem after (h : Frame c before now) {moves : List Move}
    (hopen : now.StaysAbove c (before.depth c + 1) moves) :
    Frame c before (now.after c moves) := by
  induction moves generalizing now with
  | nil => exact h
  | cons move rest ih =>
    obtain ⟨hhere, hrest⟩ := hopen
    exact ih (h.next hhere (Nat.le_of_succ_le hrest.le)) hrest

end Frame

end Scopes

/-! ## Every stack there is -/

namespace Scopes

namespace Sound

variable {s : Scopes}

theorem next (h : s.Sound) (c : Context) (move : Move) : (move.next c s).Sound := by
  intro d scope hscope
  rcases mem_stack_next hscope with ⟨rfl, rfl⟩ | hscope | hscope
  · exact Nat.lt_succ_self s.opened
  · exact Nat.lt_of_lt_of_le (h c scope hscope) opened_le_next
  · exact Nat.lt_of_lt_of_le (h d scope hscope) opened_le_next

theorem after (h : s.Sound) (c : Context) (moves : List Move) : (s.after c moves).Sound := by
  induction moves generalizing s with
  | nil => exact h
  | cons move rest ih => exact ih (h.next c move)

end Sound

end Scopes

theorem Session.sound_run {s : Session} (h : s.scopes.Sound) (steps : List (Context × Step)) :
    (s.run steps).2.scopes.Sound := by
  induction steps generalizing s with
  | nil => exact h
  | cons first rest ih =>
    obtain ⟨c, step⟩ := first
    refine ih ?_
    rw [step.scopes_run c s]
    exact h.after c step.moves

/-! ## Brackets -/

namespace Session

/-- What a bracket gives back if so many pushes and pops stand in its body: the scopes from before
with the keys that they had and, above them, the surplus of pushes. -/
structure Restored (c : Context) (before after : Session) (pushes pops : Nat) : Prop where
  stack_suffix : before.scopes.stack c <:+ after.scopes.stack c
  seen_eq : ∀ scope ∈ before.scopes.stack c, after.scopes.seen scope = before.scopes.seen scope
  depth_add : after.scopes.depth c + pops = before.scopes.depth c + pushes
  stack_eq : pushes = pops → after.scopes.stack c = before.scopes.stack c

theorem Restored.of_frame {c : Context} {before after : Session} {pushes pops : Nat}
    (hsound : before.scopes.Sound) (h : Scopes.Frame c before.scopes after.scopes)
    (hadd : after.scopes.depth c + pops = before.scopes.depth c + pushes) :
    Restored c before after pushes pops := by
  refine ⟨h.suffix, fun scope hscope => h.seen_eq scope (hsound c scope hscope), hadd, ?_⟩
  intro hbalanced
  have hlength : (before.scopes.stack c).length = (after.scopes.stack c).length := by
    simp only [Scopes.depth_eq_length] at hadd
    omega
  exact (h.suffix.eq_of_length hlength).symm

/-- A push, a body that stays above it, and the pop that ends the bracket. -/
theorem restored_of_staysOpen {c : Context} {s : Session} (hsound : s.scopes.Sound)
    {body : List Step} (hopen : Step.StaysOpen c (s.push c) body) :
    Restored c s ((Step.runAll c (s.push c) body).2.pop c) (Step.pushes body)
      (Step.pops body) := by
  have hpush : (s.push c).scopes.depth c = s.scopes.depth c + 1 := s.scopes.depth_push c
  have habove := hopen.staysAbove
  rw [hpush] at habove
  have hlast : s.scopes.depth c < (Step.runAll c (s.push c) body).2.scopes.depth c := by
    rw [Step.scopes_runAll]
    exact habove.last
  have hframe : Scopes.Frame c s.scopes (Step.runAll c (s.push c) body).2.scopes := by
    rw [Step.scopes_runAll]
    exact (Scopes.Frame.refl c s.scopes).push.after habove
  have hbody : (Step.runAll c (s.push c) body).2.scopes.depth c + Step.pops body =
      s.scopes.depth c + 1 + Step.pushes body := by
    -- Blocks open as many scopes as they close, so only what stands in the body counts.
    obtain ⟨blocks, hpushes, hpops⟩ := Step.exists_count_movesAll body
    have hcount := habove.depth_after
    rw [hpush, hpushes, hpops] at hcount
    rw [Step.scopes_runAll]
    omega
  refine .of_frame hsound ?_ ?_
  · rw [scopes_pop]
    exact hframe.pop hlast
  · rw [scopes_pop, Scopes.depth_pop]
    omega

/-- **Brackets give back what they found.** Whatever has happened before, in whatever contexts:
after a block, left normally or by an error, and after a request, finished or stopped by an error,
whose body never goes below the scope of the bracket, the scopes from before are there, in their
order and with their keys, and the depth has grown by the pushes and shrunk by the pops that stand
in the body. A request that is answered early changes nothing. -/
theorem brackets_restore (c : Context) (history : List (Context × Step)) :
    let s := (Session.run {} history).2
    (∀ body raises, Step.StaysOpen c (s.push c) body →
      Restored c s ((Step.bracket body raises).run c s).2 (Step.pushes body) (Step.pops body))
    ∧ (∀ actions, Step.StaysOpen c (s.push c) (Action.executed actions) →
      Restored c s ((Visit.request false actions).run c s).2
        (Step.pushes (Action.executed actions)) (Step.pops (Action.executed actions)))
    ∧ ∀ actions, ((Visit.request true actions).run c s).2 = s := by
  intro s
  have hsound : s.scopes.Sound := sound_run (fun c => List.forall_mem_nil _) history
  refine ⟨?_, ?_, fun actions => rfl⟩
  · intro body raises hopen
    exact restored_of_staysOpen hsound hopen
  · intro actions hopen
    have hrun : ((Visit.request false actions).run c s).2 =
        (Step.runAll c (s.push c) (Action.executed actions)).2.pop c := by
      rw [← Action.session_runAll]
      rfl
    rw [hrun]
    exact restored_of_staysOpen hsound hopen

/-- A block whose inner block closes its own scope early, so that the end of the inner block
closes the scope that was pushed before it, and a request that fails with a scope still open. -/
theorem brackets_restore_misnested :
    let s := (Session.run {} [("main", .push), ("main", .record "card")]).2
    let body := [Step.push, .bracket [.pop, .tag .call "card" "p"] true, .push, .pop]
    let actions := [Action.step .push, .step (.record "card"), .boom, .step .pop]
    (Step.StaysOpen "main" (s.push "main") body
      ∧ Restored "main" s ((Step.bracket body false).run "main" s).2 2 2)
    ∧ Step.StaysOpen "main" (s.push "main") (Action.executed actions)
      ∧ Restored "main" s ((Visit.request false actions).run "main" s).2 1 0 := by
  intro s body actions
  have hbody : Step.StaysOpen "main" (s.push "main") body := by
    unfold Step.StaysOpen
    decide +kernel
  have hactions : Step.StaysOpen "main" (s.push "main") (Action.executed actions) := by
    unfold Step.StaysOpen
    decide +kernel
  obtain ⟨hblock, hrequest, -⟩ :=
    brackets_restore "main" [("main", .push), ("main", .record "card")]
  exact ⟨⟨hbody, hblock body false hbody⟩, hactions, hrequest actions hactions⟩

end Session

end Cascade
