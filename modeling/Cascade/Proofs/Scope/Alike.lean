import Cascade.Proofs.Scope.Inline

/-!
# Two runs side by side

The same body may start from different scopes and still be answered alike: when every question in
it gets the same answer and the depths keep one distance (`Scopes.Alike`). `run_alike` carries
that over from single moves to steps with blocks, where the distance shows in the reported depths
alone.

`Twins` is how such pairs of scopes come about. The innermost scopes of the context correspond to
each other one by one and have seen the same keys; what lies below them is not looked at, and the
two may store their scopes under different numbers.
-/

namespace Cascade

namespace Answer

mutual

/-- The answer with all depths raised by `k`. -/
def deepen (k : Nat) : Answer → Answer
  | depth n => depth (n + k)
  | block inner raised => block (deepenAll k inner) raised
  | answer => answer
termination_by structural answer => answer

def deepenAll (k : Nat) : List (Answer × Nat) → List (Answer × Nat)
  | [] => []
  | (answer, n) :: rest => (deepen k answer, n + k) :: deepenAll k rest
termination_by structural answers => answers

end

mutual

@[simp] theorem deepen_zero : ∀ answer : Answer, answer.deepen 0 = answer
  | block inner raised => by rw [deepen, deepenAll_zero inner]
  | done | depth _ | fresh _ | markup _ | refused _ => rfl

@[simp] theorem deepenAll_zero : ∀ answers : List (Answer × Nat), deepenAll 0 answers = answers
  | [] => rfl
  | (answer, n) :: rest => by
    rw [deepenAll, deepen_zero answer, deepenAll_zero rest, Nat.add_zero]

end

end Answer

/-! ## Bodies that are answered alike -/

namespace Scopes

/-- The moves are answered alike from `s` and from `t`, and all the while context `c` has `k`
scopes more from `s`. The depth behind the making of a thread is that of the thread, so it shows
no distance. -/
def Alike (c : Context) (k : Nat) : Scopes → Scopes → List Move → Prop
  | s, t, [] => s.depth c = t.depth c + k
  | s, t, move :: rest =>
    s.depth c = t.depth c + k
    ∧ (∀ key, move = .record key → (s.record c key).1 = (t.record c key).1)
    ∧ (∀ new, move = .thread new → k = 0)
    ∧ Alike c k (move.next c s) (move.next c t) rest

namespace Alike

variable {c : Context} {k : Nat} {s t : Scopes}

theorem depth_eq {moves : List Move} (h : Alike c k s t moves) :
    s.depth c = t.depth c + k := by
  cases moves with
  | nil => exact h
  | cons move rest => exact h.1

theorem after {a b : List Move} (h : Alike c k s t (a ++ b)) :
    Alike c k (s.after c a) (t.after c a) b := by
  induction a generalizing s t with
  | nil => exact h
  | cons move rest ih => exact ih h.2.2.2

/-- The next question is the same for both. -/
theorem record_eq {key : String} {rest : List Move}
    (h : Alike c k s t (.record key :: rest)) : (s.record c key).1 = (t.record c key).1 :=
  h.2.1 key rfl

end Alike

end Scopes

namespace Step

variable {c : Context} {k : Nat}

/-- The answer to a call for a style element hangs on the question for its key. -/
theorem tag_alike {s t : Session} {name css : String} {rest : List Move}
    (h : css ≠ "" →
      Scopes.Alike c k s.scopes t.scopes (.record (Scopes.styleKey name css) :: rest)) :
    (s.tag c name css).1 = (t.tag c name css).1.deepen k := by
  show Answer.markup (s.scopes.tag c name css).1 = .markup (t.scopes.tag c name css).1
  by_cases hcss : css = ""
  · subst hcss
    rfl
  · have hempty : css.isEmpty = false := by simpa using hcss
    rw [Scopes.tag_eq, Scopes.tag_eq, hempty, (h hcss).record_eq]
    rfl

theorem depth_run_alike (step : Step) {s t : Session} {rest : List Move}
    (h : Scopes.Alike c k s.scopes t.scopes (step.moves ++ rest)) :
    (step.run c s).2.scopes.depth c = (step.run c t).2.scopes.depth c + k := by
  rw [scopes_run, scopes_run]
  exact h.after.depth_eq

mutual

/-- A step whose moves are answered alike is answered alike, up to the distance in its depths. -/
theorem run_alike :
    ∀ (step : Step) {s t : Session} {rest : List Move},
      Scopes.Alike c k s.scopes t.scopes (step.moves ++ rest) →
      (step.run c s).1 = ((step.run c t).1.1.deepen k, (step.run c t).1.2 + k)
  | push, s, t, rest, h => Prod.ext rfl (depth_run_alike push h)
  | pop, s, t, rest, h => Prod.ext rfl (depth_run_alike pop h)
  | depth, s, t, rest, h =>
    Prod.ext (congrArg Answer.depth h.depth_eq) (depth_run_alike depth h)
  | record key, s, t, rest, h =>
    Prod.ext (congrArg Answer.fresh h.record_eq) (depth_run_alike (record key) h)
  | tag source name css, s, t, rest, h => by
    have hanswer : (s.tag c name css).1 = (t.tag c name css).1.deepen k := by
      refine tag_alike fun hcss => (?_ : Scopes.Alike c k s.scopes t.scopes (_ :: rest))
      rw [moves_eq_toList rfl] at h
      simpa [move?, key?, tagCall?, hcss] using h
    exact Prod.ext hanswer (depth_run_alike _ h)
  | tagDocument name document, s, t, rest, h => by
    refine Prod.ext ?_ (depth_run_alike _ h)
    show (s.tagDocument c name document).1 = (t.tagDocument c name document).1.deepen k
    cases houtcome : (Component.compileDocument document).outcome with
    | error fault =>
      rw [Session.tagDocument_of_error houtcome, Session.tagDocument_of_error houtcome]
      rfl
    | ok compiled =>
      rw [Session.tagDocument_of_ok houtcome, Session.tagDocument_of_ok houtcome]
      refine tag_alike fun hcss => (?_ : Scopes.Alike c k s.scopes t.scopes (_ :: rest))
      rw [moves_eq_toList rfl] at h
      simpa [move?, key?, tagCall?, houtcome, hcss] using h
  | bracket steps raises, s, t, rest, h => by
    have hinner : Scopes.Alike c k (s.push c).scopes (t.push c).scopes
        (movesAll steps ++ (.pop :: rest)) := by
      rw [moves_bracket, List.cons_append, List.append_assoc] at h
      exact h.2.2.2
    exact Prod.ext (congrArg (Answer.block · raises) (runAll_alike steps hinner))
      (depth_run_alike _ h)
  | thread new, s, t, rest, h => by
    obtain rfl : k = 0 := h.2.2.1 new rfl
    rw [Answer.deepen_zero]
    simp [run, Session.answered, Scopes.thread, Scopes.depth]
  | task new, s, t, rest, h => by
    have hdepth := h.depth_eq
    simp only [Scopes.depth] at hdepth
    simp [run, Session.answered, Scopes.task, Scopes.depth, Answer.deepen, hdepth]

theorem runAll_alike :
    ∀ (steps : List Step) {s t : Session} {rest : List Move},
      Scopes.Alike c k s.scopes t.scopes (movesAll steps ++ rest) →
      (runAll c s steps).1 = Answer.deepenAll k (runAll c t steps).1
  | [], s, t, rest, h => rfl
  | step :: later, s, t, rest, h => by
    rw [movesAll_cons, List.append_assoc] at h
    have hstep := run_alike step h
    have hlater := h.after
    rw [← scopes_run, ← scopes_run] at hlater
    rw [runAll_cons, runAll_cons, hstep, runAll_alike later hlater, Answer.deepenAll]

end

end Step

/-! ## Corresponding scopes -/

namespace Scopes

/-- The innermost scopes of context `c` in `s` and in `t` are the pairs `own`, innermost first,
with `left` and `right` below them. The scopes of a pair have seen the same keys. -/
structure Twins (c : Context) (own : List (Nat × Nat)) (left right : List Nat) (s t : Scopes) :
    Prop where
  stack_left : s.stack c = own.map Prod.fst ++ left
  stack_right : t.stack c = own.map Prod.snd ++ right
  lt_left : ∀ pair ∈ own, pair.1 < s.opened
  lt_right : ∀ pair ∈ own, pair.2 < t.opened
  apart : own.Pairwise fun p q => p.1 ≠ q.1 ∧ p.2 ≠ q.2
  seen_eq : ∀ pair ∈ own, s.seen pair.1 = t.seen pair.2

namespace Twins

variable {c : Context} {own : List (Nat × Nat)} {pair : Nat × Nat} {left right : List Nat}
  {s s' t t' : Scopes}

theorem depth_add (h : Twins c own left right s t) :
    s.depth c + right.length = t.depth c + left.length := by
  simp only [depth, h.stack_left, h.stack_right, List.length_append, List.length_map]
  omega

/-- Whatever keeps the stack of the context, and the keys of the corresponding scopes, keeps the
correspondence. -/
theorem congr (h : Twins c own left right s t) (hs : s'.stack c = s.stack c)
    (ht : t'.stack c = t.stack c) (hopened : s.opened ≤ s'.opened)
    (hopened' : t.opened ≤ t'.opened)
    (hseen : ∀ pair ∈ own, s'.seen pair.1 = t'.seen pair.2) : Twins c own left right s' t' where
  stack_left := hs.trans h.stack_left
  stack_right := ht.trans h.stack_right
  lt_left p hp := Nat.lt_of_lt_of_le (h.lt_left p hp) hopened
  lt_right p hp := Nat.lt_of_lt_of_le (h.lt_right p hp) hopened'
  apart := h.apart
  seen_eq := hseen

theorem push (h : Twins c own left right s t) :
    Twins c ((s.opened, t.opened) :: own) left right (s.push c) (t.push c) := by
  refine ⟨?_, ?_, ?_, ?_, ?_, ?_⟩
  · rw [stack_push, if_pos rfl, h.stack_left]
    rfl
  · rw [stack_push, if_pos rfl, h.stack_right]
    rfl
  · refine List.forall_mem_cons.mpr ⟨Nat.lt_succ_self _, fun p hp => ?_⟩
    exact Nat.lt_succ_of_lt (h.lt_left p hp)
  · refine List.forall_mem_cons.mpr ⟨Nat.lt_succ_self _, fun p hp => ?_⟩
    exact Nat.lt_succ_of_lt (h.lt_right p hp)
  · refine List.pairwise_cons.mpr ⟨fun p hp => ?_, h.apart⟩
    exact ⟨Nat.ne_of_gt (h.lt_left p hp), Nat.ne_of_gt (h.lt_right p hp)⟩
  · refine List.forall_mem_cons.mpr ⟨by simp, fun p hp => ?_⟩
    rw [seen_push, seen_push, if_neg (Nat.ne_of_lt (h.lt_left p hp)),
      if_neg (Nat.ne_of_lt (h.lt_right p hp)), h.seen_eq p hp]

theorem pop (h : Twins c (pair :: own) left right s t) :
    Twins c own left right (s.pop c) (t.pop c) := by
  refine ⟨?_, ?_, ?_, ?_, h.apart.of_cons, ?_⟩
  · rw [stack_pop, if_pos rfl, h.stack_left]
    rfl
  · rw [stack_pop, if_pos rfl, h.stack_right]
    rfl
  · exact (List.forall_mem_cons.mp h.lt_left).2
  · exact (List.forall_mem_cons.mp h.lt_right).2
  · exact (List.forall_mem_cons.mp h.seen_eq).2

/-- With no corresponding scopes, two stacks are all that there is. -/
theorem of_stacks (hs : s.stack c = left) (ht : t.stack c = right) : Twins c [] left right s t :=
  ⟨hs, ht, List.forall_mem_nil _, List.forall_mem_nil _, .nil, List.forall_mem_nil _⟩

/-- A question to corresponding scopes has the same answer, and leaves them corresponding. -/
theorem record (h : Twins c (pair :: own) left right s t) (key : String) :
    (s.record c key).1 = (t.record c key).1
    ∧ Twins c (pair :: own) left right (s.record c key).2 (t.record c key).2 := by
  have hs : s.stack c = pair.1 :: (own.map Prod.fst ++ left) := h.stack_left
  have ht : t.stack c = pair.2 :: (own.map Prod.snd ++ right) := h.stack_right
  have hseen : s.seen pair.1 = t.seen pair.2 := h.seen_eq pair List.mem_cons_self
  by_cases hkey : key ∈ s.seen pair.1
  · have hkey' : key ∈ t.seen pair.2 := hseen ▸ hkey
    rw [record_of_mem hs hkey, record_of_mem ht hkey']
    exact ⟨rfl, h⟩
  · have hkey' : key ∉ t.seen pair.2 := hseen ▸ hkey
    rw [record_of_not_mem hs hkey, record_of_not_mem ht hkey']
    refine ⟨rfl, h.congr rfl rfl (Nat.le_refl _) (Nat.le_refl _) ?_⟩
    refine List.forall_mem_cons.mpr ⟨by simp [hseen], fun p hp => ?_⟩
    obtain ⟨hleft, hright⟩ := List.rel_of_pairwise_cons h.apart hp
    rw [seen_setSeen, seen_setSeen, if_neg hleft.symm, if_neg hright.symm]
    exact h.seen_eq p (List.mem_cons_of_mem _ hp)

end Twins

end Scopes

end Cascade
