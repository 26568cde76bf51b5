import Cascade.Scope.Session

/-!
# Runs of scope steps

What a run answers at each of its steps, and what single moves do to the scopes of all contexts. A
move is a step that touches the scopes once: the steps that consist of several (tags, brackets)
are made of moves.
-/

namespace Cascade

/-! ## Operations on scopes -/

namespace Scopes

variable (s : Scopes) (c d : Context)

@[simp] theorem stack_setStack (stack : List Nat) :
    (s.setStack c stack).stack d = if d = c then stack else s.stack d := rfl

@[simp] theorem opened_setStack (stack : List Nat) : (s.setStack c stack).opened = s.opened := rfl

@[simp] theorem seen_setStack (stack : List Nat) : (s.setStack c stack).seen = s.seen := rfl

@[simp] theorem stack_setSeen (scope : Nat) (keys : List String) :
    (s.setSeen scope keys).stack = s.stack := rfl

@[simp] theorem opened_setSeen (scope : Nat) (keys : List String) :
    (s.setSeen scope keys).opened = s.opened := rfl

@[simp] theorem seen_setSeen (scope other : Nat) (keys : List String) :
    (s.setSeen scope keys).seen other = if other = scope then keys else s.seen other := rfl

@[simp] theorem stack_push :
    (s.push c).stack d = if d = c then s.opened :: s.stack c else s.stack d := rfl

@[simp] theorem opened_push : (s.push c).opened = s.opened + 1 := rfl

@[simp] theorem seen_push (scope : Nat) :
    (s.push c).seen scope = if scope = s.opened then [] else s.seen scope := rfl

@[simp] theorem stack_pop :
    (s.pop c).stack d = if d = c then (s.stack c).tail else s.stack d := rfl

@[simp] theorem opened_pop : (s.pop c).opened = s.opened := rfl

@[simp] theorem seen_pop : (s.pop c).seen = s.seen := rfl

theorem depth_eq_length : s.depth c = (s.stack c).length := rfl

@[simp] theorem depth_push : (s.push c).depth c = s.depth c + 1 := by
  simp [depth_eq_length]

@[simp] theorem depth_pop : (s.pop c).depth c = s.depth c - 1 := by
  simp [depth_eq_length]

/-- Closing with nothing open changes nothing. -/
theorem pop_of_stack_eq_nil {s : Scopes} {c : Context} (h : s.stack c = []) : s.pop c = s := by
  have hstack : (s.pop c).stack = s.stack := by
    funext d
    by_cases hd : d = c <;> simp [hd, h]
  obtain ⟨opened, seen, stack⟩ := s
  simp only [pop, setStack, mk.injEq, true_and]
  exact hstack

/-- With nothing open, every style is to be emitted. -/
theorem record_of_nil {s : Scopes} {c : Context} {key : String} (hstack : s.stack c = []) :
    s.record c key = (true, s) := by
  rw [record, hstack]

theorem record_of_mem {s : Scopes} {c : Context} {key : String} {innermost : Nat}
    {rest : List Nat} (hstack : s.stack c = innermost :: rest) (hkey : key ∈ s.seen innermost) :
    s.record c key = (false, s) := by
  rw [record, hstack]
  exact if_pos hkey

theorem record_of_not_mem {s : Scopes} {c : Context} {key : String} {innermost : Nat}
    {rest : List Nat} (hstack : s.stack c = innermost :: rest) (hkey : key ∉ s.seen innermost) :
    s.record c key = (true, s.setSeen innermost (key :: s.seen innermost)) := by
  rw [record, hstack]
  exact if_neg hkey

@[simp] theorem stack_record (key : String) : (s.record c key).2.stack = s.stack := by
  unfold record
  split
  · rfl
  · split <;> rfl

@[simp] theorem opened_record (key : String) : (s.record c key).2.opened = s.opened := by
  unfold record
  split
  · rfl
  · split <;> rfl

@[simp] theorem depth_record (key : String) : (s.record c key).2.depth d = s.depth d := by
  rw [depth, stack_record, depth]

/-- Only the innermost scope is marked, and only with this key. -/
theorem mem_seen_record (key other : String) (scope : Nat) :
    other ∈ (s.record c key).2.seen scope ↔
      other ∈ s.seen scope ∨ ((s.stack c).head? = some scope ∧ other = key) := by
  unfold record
  cases hstack : s.stack c with
  | nil => simp
  | cons innermost rest =>
    by_cases hkey : key ∈ s.seen innermost
    · simp only [if_pos hkey, List.head?_cons, Option.some.injEq]
      refine ⟨Or.inl, ?_⟩
      rintro (h | ⟨rfl, rfl⟩)
      · exact h
      · exact hkey
    · simp only [if_neg hkey, seen_setSeen, List.head?_cons, Option.some.injEq]
      by_cases hscope : scope = innermost
      · subst hscope
        simp [or_comm]
      · simp [hscope, Ne.symm hscope]

theorem seen_record_of_ne (key : String) {scope : Nat} (h : (s.stack c).head? ≠ some scope) :
    (s.record c key).2.seen scope = s.seen scope := by
  unfold record
  cases hstack : s.stack c with
  | nil => rfl
  | cons innermost rest =>
    have hne : scope ≠ innermost := by
      rintro rfl
      exact h (by rw [hstack, List.head?_cons])
    by_cases hkey : key ∈ s.seen innermost
    · simp only [if_pos hkey]
    · simp only [if_neg hkey, seen_setSeen, if_neg hne]

/-- The innermost scope alone is asked. -/
theorem record_fst_eq_true_iff (key : String) :
    (s.record c key).1 = true ↔
      s.stack c = [] ∨ ∃ scope, (s.stack c).head? = some scope ∧ key ∉ s.seen scope := by
  unfold record
  cases hstack : s.stack c with
  | nil => simp
  | cons innermost rest => by_cases hkey : key ∈ s.seen innermost <;> simp [hkey]

end Scopes

/-! ## Moves -/

/-- What a context can do to its scopes in one go, and how contexts come about. -/
inductive Move where
  | push
  | pop
  | record (key : String)
  | thread (new : Context)
  | task (new : Context)
  deriving DecidableEq, Repr

namespace Move

/-- The move as a step of a session. -/
def step : Move → Step
  | push => .push
  | pop => .pop
  | record key => .record key
  | thread new => .thread new
  | task new => .task new

/-- The scopes after a move of context `c`. -/
def next (c : Context) (s : Scopes) : Move → Scopes
  | push => s.push c
  | pop => s.pop c
  | record key => (s.record c key).2
  | thread new => s.thread new
  | task new => s.task c new

end Move

namespace Scopes

variable {s : Scopes} {c : Context} {move : Move}

/-- Scopes are numbered upwards. -/
theorem opened_le_next : s.opened ≤ (move.next c s).opened := by
  cases move with
  | push => exact Nat.le_succ s.opened
  | record key => exact Nat.le_of_eq (s.opened_record c key).symm
  | _ => exact Nat.le_refl s.opened

/-- A scope that is open behind a move was open before, there or in the context that moves, unless
it is new. -/
theorem mem_stack_next {d : Context} {scope : Nat} (h : scope ∈ (move.next c s).stack d) :
    (move = .push ∧ scope = s.opened) ∨ scope ∈ s.stack c ∨ scope ∈ s.stack d := by
  cases move with
  | push =>
    rw [Move.next, stack_push] at h
    split at h
    · rcases List.mem_cons.mp h with hnew | hold
      · exact .inl ⟨rfl, hnew⟩
      · exact .inr (.inl hold)
    · exact .inr (.inr h)
  | pop =>
    rw [Move.next, stack_pop] at h
    split at h
    · exact .inr (.inl (List.mem_of_mem_tail h))
    · exact .inr (.inr h)
  | record key =>
    rw [Move.next, stack_record] at h
    exact .inr (.inr h)
  | thread new =>
    rw [Move.next, thread, stack_setStack] at h
    split at h
    · cases h
    · exact .inr (.inr h)
  | task new =>
    rw [Move.next, task, stack_setStack] at h
    split at h
    · exact .inr (.inl h)
    · exact .inr (.inr h)

/-- A question adds its key to the innermost scope; no other move adds to a scope that is there. -/
theorem mem_seen_next {key : String} {scope : Nat} (hlt : scope < s.opened) :
    key ∈ (move.next c s).seen scope ↔
      key ∈ s.seen scope ∨ (move = .record key ∧ (s.stack c).head? = some scope) := by
  cases move with
  | push => simp [Move.next, Nat.ne_of_lt hlt]
  | record other =>
    rw [Move.next, mem_seen_record, Move.record.injEq, and_comm, eq_comm]
  | pop | thread new | task new => simp [Move.next, thread, task]

end Scopes

theorem Session.scopes_pop (s : Session) (c : Context) : (s.pop c).scopes = s.scopes.pop c := by
  unfold pop
  split
  · rename_i hstack
    exact (Scopes.pop_of_stack_eq_nil hstack).symm
  · rfl

theorem Move.scopes_run_step (move : Move) (c : Context) (s : Session) :
    (move.step.run c s).2.scopes = move.next c s.scopes := by
  cases move with
  | pop => exact s.scopes_pop c
  | _ => rfl

/-! ## Runs -/

namespace Session

theorem run_append (s : Session) (a b : List (Context × Step)) :
    s.run (a ++ b) = ((s.run a).1 ++ ((s.run a).2.run b).1, ((s.run a).2.run b).2) := by
  induction a generalizing s with
  | nil => rfl
  | cons first rest ih => simp only [List.cons_append, run, ih]

@[simp] theorem length_run (s : Session) (steps : List (Context × Step)) :
    (s.run steps).1.length = steps.length := by
  induction steps generalizing s with
  | nil => rfl
  | cons first rest ih => simp only [run, List.length_cons, ih]

/-- A step is answered by what the steps before it have led to. -/
theorem getElem?_run {s : Session} {steps : List (Context × Step)} {i : Nat} {c : Context}
    {step : Step} (h : steps[i]? = some (c, step)) :
    (s.run steps).1[i]? = some (step.run c (s.run (steps.take i)).2).1 := by
  obtain ⟨hlt, hget⟩ := List.getElem?_eq_some_iff.mp h
  have hsplit : steps = steps.take i ++ (c, step) :: steps.drop (i + 1) := by
    rw [← hget, ← List.drop_eq_getElem_cons hlt, List.take_append_drop]
  have hlen : (s.run (steps.take i)).1.length = i := by
    rw [length_run, List.length_take]
    omega
  conv => lhs; rw [hsplit]
  rw [run_append, List.getElem?_append_right (by omega), hlen, Nat.sub_self]
  rfl

end Session

end Cascade
