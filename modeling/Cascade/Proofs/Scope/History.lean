import Cascade.Proofs.Scope.Run
import Mathlib.Data.List.Induction
import Mathlib.Data.Nat.Find

/-!
# What the history of a run decides

Whether a style is to be emitted, told from the moves of a run alone. A scope is named by the
place of the push that opened it (`Moves.openScopes`), and a scope has been asked for a key if
some context has asked for it while that scope was its innermost one (`Moves.Asks`). Neither knows
of recorded keys, of stacks that share scopes or of the numbers that scopes are stored under.

`Tracks` is the invariant that ties the stored scopes to the history: it goes through every move
(`Tracks.next`) and so through every run. The main statement is `answers_record_iff`: a question
is answered with yes exactly if the context has no scope or its innermost scope has not been asked
for that key before, by whatever context; each scope thus says yes once for each key.
-/

namespace Cascade

/-- What all contexts do, one move after the other. -/
abbrev Moves := List (Context × Move)

namespace Moves

/-! ## The history -/

/-- The open scopes of a context, innermost first, where the latest move is listed first. A
context matches its own pushes and pops, above the scopes that it came with. -/
def openAfter : Moves → Context → List Nat
  | [], _ => []
  | (d, .push) :: past, c =>
    if d = c then past.length :: openAfter past c else openAfter past c
  | (d, .pop) :: past, c => if d = c then (openAfter past c).tail else openAfter past c
  | (_, .record _) :: past, c => openAfter past c
  | (_, .thread new) :: past, c => if c = new then [] else openAfter past c
  | (d, .task new) :: past, c => if c = new then openAfter past d else openAfter past c

/-- The open scopes of a context behind some moves, innermost first. -/
def openScopes (past : Moves) (c : Context) : List Nat :=
  openAfter past.reverse c

/-- Move `i` asks the scope for the key: it comes from a context whose innermost scope this is. -/
def Asks (moves : Moves) (i : Nat) (c : Context) (key : String) (scope : Nat) : Prop :=
  moves[i]? = some (c, .record key) ∧ (openScopes (moves.take i) c).head? = some scope

/-- Some context has asked the scope for the key. -/
def Asked (past : Moves) (scope : Nat) (key : String) : Prop :=
  ∃ i c, past.Asks i c key scope

theorem openScopes_concat (past : Moves) (d c : Context) (move : Move) :
    openScopes (past ++ [(d, move)]) c =
      match move with
      | .push => if d = c then past.length :: past.openScopes c else past.openScopes c
      | .pop => if d = c then (past.openScopes c).tail else past.openScopes c
      | .record _ => past.openScopes c
      | .thread new => if c = new then [] else past.openScopes c
      | .task new => if c = new then past.openScopes d else past.openScopes c := by
  rw [openScopes, List.reverse_append, List.reverse_singleton, List.singleton_append]
  cases move <;> simp [openAfter, openScopes]

theorem lt_of_mem_openAfter {past : Moves} {c : Context} {scope : Nat}
    (h : scope ∈ openAfter past c) : scope < past.length := by
  induction past generalizing c with
  | nil => cases h
  | cons last past ih =>
    obtain ⟨d, move⟩ := last
    refine Nat.lt_succ_iff.mpr ?_
    cases move with
    | push =>
      unfold openAfter at h
      split at h
      · rcases List.mem_cons.mp h with rfl | h
        · exact Nat.le_refl _
        · exact Nat.le_of_lt (ih h)
      · exact Nat.le_of_lt (ih h)
    | pop =>
      unfold openAfter at h
      split at h
      · exact Nat.le_of_lt (ih (List.mem_of_mem_tail h))
      · exact Nat.le_of_lt (ih h)
    | record key => exact Nat.le_of_lt (ih h)
    | thread new =>
      unfold openAfter at h
      split at h
      · cases h
      · exact Nat.le_of_lt (ih h)
    | task new =>
      unfold openAfter at h
      split at h
      · exact Nat.le_of_lt (ih h)
      · exact Nat.le_of_lt (ih h)

/-- An open scope was opened by an earlier move. -/
theorem lt_of_mem_openScopes {past : Moves} {c : Context} {scope : Nat}
    (h : scope ∈ past.openScopes c) : scope < past.length := by
  simpa using lt_of_mem_openAfter h

theorem Asks.lt {moves : Moves} {i : Nat} {c : Context} {key : String} {scope : Nat}
    (h : moves.Asks i c key scope) : i < moves.length :=
  (List.getElem?_eq_some_iff.mp h.1).1

/-- A scope is asked only after it was opened. -/
theorem Asks.scope_lt {moves : Moves} {i : Nat} {c : Context} {key : String} {scope : Nat}
    (h : moves.Asks i c key scope) : scope < i := by
  have hlt := lt_of_mem_openScopes (List.mem_of_mem_head? h.2)
  rw [List.length_take] at hlt
  omega

theorem asks_take_iff {moves : Moves} {i j : Nat} {c : Context} {key : String} {scope : Nat} :
    Asks (moves.take i) j c key scope ↔ j < i ∧ moves.Asks j c key scope := by
  constructor
  · intro h
    have hlt := h.lt
    rw [List.length_take] at hlt
    obtain ⟨hget, hhead⟩ := h
    rw [List.getElem?_take_of_lt (by omega)] at hget
    rw [List.take_take, Nat.min_eq_left (by omega)] at hhead
    exact ⟨by omega, hget, hhead⟩
  · rintro ⟨hlt, hget, hhead⟩
    refine ⟨by rw [List.getElem?_take_of_lt hlt]; exact hget, ?_⟩
    rw [List.take_take, Nat.min_eq_left (by omega)]
    exact hhead

/-- One more move asks only its own context's innermost scope. -/
theorem asked_concat_iff {past : Moves} {d : Context} {move : Move} {scope : Nat} {key : String} :
    Asked (past ++ [(d, move)]) scope key ↔
      past.Asked scope key ∨ (move = .record key ∧ (past.openScopes d).head? = some scope) := by
  constructor
  · rintro ⟨i, c, h⟩
    rcases Nat.lt_or_ge i past.length with hi | hi
    · refine Or.inl ⟨i, c, ?_⟩
      have := asks_take_iff.mpr ⟨hi, h⟩
      rwa [List.take_left] at this
    · have hlen := h.lt
      simp only [List.length_append, List.length_singleton] at hlen
      obtain rfl : i = past.length := by omega
      obtain ⟨hget, hhead⟩ := h
      rw [List.getElem?_concat_length] at hget
      obtain ⟨rfl, rfl⟩ := Prod.mk.injEq .. |>.mp (Option.some.inj hget)
      rw [List.take_left] at hhead
      exact Or.inr ⟨rfl, hhead⟩
  · rintro (⟨i, c, h⟩ | ⟨rfl, hhead⟩)
    · refine ⟨i, c, (asks_take_iff (i := past.length)).mp ?_ |>.2⟩
      rwa [List.take_left]
    · refine ⟨past.length, d, List.getElem?_concat_length, ?_⟩
      rwa [List.take_left]

theorem not_asked_of_length_le {past : Moves} {scope : Nat} {key : String}
    (h : past.length ≤ scope) : ¬ past.Asked scope key := by
  rintro ⟨i, c, hasks⟩
  have h1 := hasks.lt
  have h2 := hasks.scope_lt
  omega

end Moves

/-! ## The invariant

The scope stored under `n` was opened by move `birth n`. Pushing extends `birth` at the number
that is free; every other move keeps it. -/

structure Tracks (past : Moves) (s : Scopes) (birth : Nat → Nat) : Prop where
  birth_lt : ∀ n < s.opened, birth n < past.length
  birth_inj : ∀ m < s.opened, ∀ n < s.opened, birth m = birth n → m = n
  stack_lt : ∀ c, ∀ n ∈ s.stack c, n < s.opened
  stack_eq : ∀ c, (s.stack c).map birth = past.openScopes c
  seen_iff : ∀ n < s.opened, ∀ key, key ∈ s.seen n ↔ past.Asked (birth n) key

namespace Tracks

variable {past : Moves} {s : Scopes} {birth : Nat → Nat}

theorem initial : Tracks [] {} birth where
  birth_lt n hn := absurd hn (Nat.not_lt_zero n)
  birth_inj m hm := absurd hm (Nat.not_lt_zero m)
  stack_lt c n hn := by cases hn
  stack_eq c := rfl
  seen_iff n hn := absurd hn (Nat.not_lt_zero n)

/-- The innermost scope as stored and as the history has it. -/
theorem head?_openScopes (h : Tracks past s birth) {c : Context} {n : Nat} (hn : n < s.opened) :
    (past.openScopes c).head? = some (birth n) ↔ (s.stack c).head? = some n := by
  rw [← h.stack_eq c, List.head?_map]
  constructor
  · intro heq
    obtain ⟨m, hm, hbirth⟩ := Option.map_eq_some_iff.mp heq
    have hlt := h.stack_lt c m (List.mem_of_mem_head? hm)
    rw [hm, h.birth_inj m hlt n hn hbirth]
  · intro heq
    rw [heq, Option.map_some]

theorem push (h : Tracks past s birth) (c : Context) :
    Tracks (past ++ [(c, .push)]) (s.push c)
      fun n => if n = s.opened then past.length else birth n := by
  have hold : ∀ n < s.opened, (if n = s.opened then past.length else birth n) = birth n :=
    fun n hn => if_neg (Nat.ne_of_lt hn)
  have hstack : ∀ d, (s.stack d).map (fun n => if n = s.opened then past.length else birth n)
      = past.openScopes d := fun d => by
    rw [← h.stack_eq d]
    exact List.map_congr_left fun n hn => hold n (h.stack_lt d n hn)
  refine ⟨?_, ?_, ?_, ?_, ?_⟩
  · intro n hn
    rw [List.length_append, List.length_singleton]
    by_cases hnew : n = s.opened
    · simp [hnew]
    · have := h.birth_lt n (by simp at hn; omega)
      simp only [hnew, if_false]
      omega
  · intro m hm n hn heq
    have hm' : m ≤ s.opened := Nat.lt_succ_iff.mp hm
    have hn' : n ≤ s.opened := Nat.lt_succ_iff.mp hn
    rcases Nat.lt_or_eq_of_le hm' with hm' | rfl <;> rcases Nat.lt_or_eq_of_le hn' with hn' | rfl
    · rw [hold m hm', hold n hn'] at heq
      exact h.birth_inj m hm' n hn' heq
    · rw [hold m hm', if_pos rfl] at heq
      exact absurd heq (Nat.ne_of_lt (h.birth_lt m hm'))
    · rw [hold n hn', if_pos rfl] at heq
      exact absurd heq.symm (Nat.ne_of_lt (h.birth_lt n hn'))
    · rfl
  · intro d n hn
    rw [Scopes.stack_push] at hn
    split at hn
    · rcases List.mem_cons.mp hn with rfl | hn
      · exact Nat.lt_succ_self _
      · exact Nat.lt_succ_of_lt (h.stack_lt c n hn)
    · exact Nat.lt_succ_of_lt (h.stack_lt d n hn)
  · intro d
    rw [Scopes.stack_push, Moves.openScopes_concat]
    by_cases hd : d = c
    · subst hd
      simp only [if_true, List.map_cons, hstack]
    · simp only [if_neg hd, if_neg (Ne.symm hd), hstack]
  · intro n hn key
    rw [Scopes.seen_push, Moves.asked_concat_iff]
    rcases Nat.lt_or_eq_of_le (Nat.lt_succ_iff.mp hn) with hn | rfl
    · rw [if_neg (Nat.ne_of_lt hn), hold n hn, h.seen_iff n hn key]
      simp
    · have hfresh : ¬ past.Asked past.length key :=
        Moves.not_asked_of_length_le (Nat.le_refl past.length)
      simp [hfresh]

/-- A move other than a push changes no scope's place. -/
theorem keep {s' : Scopes} {c : Context} {move : Move} (h : Tracks past s birth)
    (hopened : s'.opened = s.opened)
    (hstack : ∀ d, (s'.stack d).map birth = Moves.openScopes (past ++ [(c, move)]) d)
    (hmem : ∀ d, ∀ n ∈ s'.stack d, ∃ e, n ∈ s.stack e)
    (hseen : ∀ n < s.opened, ∀ key, key ∈ s'.seen n ↔
      key ∈ s.seen n ∨ (move = .record key ∧ (s.stack c).head? = some n)) :
    Tracks (past ++ [(c, move)]) s' birth := by
  refine ⟨?_, ?_, ?_, hstack, ?_⟩
  · intro n hn
    have := h.birth_lt n (hopened ▸ hn)
    rw [List.length_append]
    omega
  · rw [hopened]
    exact h.birth_inj
  · intro d n hn
    obtain ⟨e, he⟩ := hmem d n hn
    exact hopened ▸ h.stack_lt e n he
  · intro n hn key
    have hn' : n < s.opened := hopened ▸ hn
    rw [hseen n hn' key, Moves.asked_concat_iff, h.seen_iff n hn' key, h.head?_openScopes hn']

theorem pop (h : Tracks past s birth) (c : Context) :
    Tracks (past ++ [(c, .pop)]) (s.pop c) birth := by
  refine h.keep rfl ?_ ?_ ?_
  · intro d
    rw [Scopes.stack_pop, Moves.openScopes_concat, ← h.stack_eq]
    by_cases hd : d = c
    · subst hd
      simp only [if_true, List.map_tail]
    · simp only [if_neg hd, if_neg (Ne.symm hd)]
  · intro d n hn
    rw [Scopes.stack_pop] at hn
    split at hn
    · exact ⟨c, List.mem_of_mem_tail hn⟩
    · exact ⟨d, hn⟩
  · intro n hn key
    simp

theorem record (h : Tracks past s birth) (c : Context) (key : String) :
    Tracks (past ++ [(c, .record key)]) (s.record c key).2 birth := by
  refine h.keep (s.opened_record c key) ?_ ?_ ?_
  · intro d
    rw [Scopes.stack_record, Moves.openScopes_concat, h.stack_eq]
  · intro d n hn
    rw [Scopes.stack_record] at hn
    exact ⟨d, hn⟩
  · intro n hn other
    rw [Scopes.mem_seen_record, Move.record.injEq, and_comm (a := key = other),
      eq_comm (a := key)]

theorem thread (h : Tracks past s birth) (c new : Context) :
    Tracks (past ++ [(c, .thread new)]) (s.thread new) birth := by
  refine h.keep rfl ?_ ?_ ?_
  · intro d
    rw [Scopes.thread, Scopes.stack_setStack, Moves.openScopes_concat, ← h.stack_eq]
    by_cases hd : d = new <;> simp [hd]
  · intro d n hn
    rw [Scopes.thread, Scopes.stack_setStack] at hn
    split at hn
    · cases hn
    · exact ⟨d, hn⟩
  · intro n hn key
    simp [Scopes.thread]

theorem task (h : Tracks past s birth) (c new : Context) :
    Tracks (past ++ [(c, .task new)]) (s.task c new) birth := by
  refine h.keep rfl ?_ ?_ ?_
  · intro d
    rw [Scopes.task, Scopes.stack_setStack, Moves.openScopes_concat, ← h.stack_eq, ← h.stack_eq]
    by_cases hd : d = new <;> simp [hd]
  · intro d n hn
    rw [Scopes.task, Scopes.stack_setStack] at hn
    split at hn
    · exact ⟨c, hn⟩
    · exact ⟨d, hn⟩
  · intro n hn key
    simp [Scopes.task]

/-- Every move keeps the invariant. -/
theorem next (h : Tracks past s birth) (c : Context) (move : Move) :
    ∃ birth', Tracks (past ++ [(c, move)]) (move.next c s) birth' := by
  cases move with
  | push => exact ⟨_, h.push c⟩
  | pop => exact ⟨birth, h.pop c⟩
  | record key => exact ⟨birth, h.record c key⟩
  | thread new => exact ⟨birth, h.thread c new⟩
  | task new => exact ⟨birth, h.task c new⟩

/-- What a question is answered with, by the history. -/
theorem record_fst_eq_true_iff (h : Tracks past s birth) (c : Context) (key : String) :
    (s.record c key).1 = true ↔
      past.openScopes c = []
      ∨ ∃ scope, (past.openScopes c).head? = some scope ∧ ¬ past.Asked scope key := by
  rw [Scopes.record_fst_eq_true_iff, ← h.stack_eq c, List.map_eq_nil_iff, List.head?_map]
  refine or_congr Iff.rfl ⟨?_, ?_⟩
  · rintro ⟨n, hn, hkey⟩
    have hlt := h.stack_lt c n (List.mem_of_mem_head? hn)
    exact ⟨birth n, by rw [hn, Option.map_some],
      fun hasked => hkey ((h.seen_iff n hlt key).mpr hasked)⟩
  · rintro ⟨scope, hscope, hasked⟩
    obtain ⟨n, hn, rfl⟩ := Option.map_eq_some_iff.mp hscope
    have hlt := h.stack_lt c n (List.mem_of_mem_head? hn)
    exact ⟨n, hn, fun hkey => hasked ((h.seen_iff n hlt key).mp hkey)⟩

end Tracks

/-! ## Answers -/

namespace Moves

/-- The session after some moves of a program that begins without scopes. -/
def session (moves : Moves) : Session :=
  (Session.run {} (moves.map fun (c, move) => (c, move.step))).2

/-- What each move is answered with, and the depth behind it. -/
def answers (moves : Moves) : List (Answer × Nat) :=
  (Session.run {} (moves.map fun (c, move) => (c, move.step))).1

theorem scopes_session_concat (past : Moves) (c : Context) (move : Move) :
    (session (past ++ [(c, move)])).scopes = move.next c past.session.scopes := by
  rw [session, List.map_append, Session.run_append]
  exact move.scopes_run_step c past.session

/-- Every run keeps the invariant. -/
theorem exists_tracks (moves : Moves) : ∃ birth, Tracks moves moves.session.scopes birth := by
  induction moves using List.reverseRecOn with
  | nil => exact ⟨id, .initial⟩
  | append_singleton past last ih =>
    obtain ⟨birth, h⟩ := ih
    obtain ⟨birth', h'⟩ := h.next last.1 last.2
    exact ⟨birth', by rw [scopes_session_concat]; exact h'⟩

theorem getElem?_answers {moves : Moves} {i : Nat} {c : Context} {move : Move}
    (h : moves[i]? = some (c, move)) :
    moves.answers[i]? = some (move.step.run c (session (moves.take i))).1 := by
  have hstep : (moves.map fun (c, move) => (c, move.step))[i]? = some (c, move.step) := by
    rw [List.getElem?_map, h, Option.map_some]
  rw [answers, Session.getElem?_run hstep, ← List.map_take]
  rfl

theorem asked_take_iff {moves : Moves} {i scope : Nat} {key : String} :
    Asked (moves.take i) scope key ↔ ∃ j < i, ∃ d, moves.Asks j d key scope := by
  constructor
  · rintro ⟨j, d, h⟩
    obtain ⟨hlt, hasks⟩ := asks_take_iff.mp h
    exact ⟨j, hlt, d, hasks⟩
  · rintro ⟨j, hlt, d, hasks⟩
    exact ⟨j, d, asks_take_iff.mpr ⟨hlt, hasks⟩⟩

/-- A question has an answer, which the moves before it decide. -/
theorem answer_record {moves : Moves} {i : Nat} {c : Context} {key : String}
    (h : moves[i]? = some (c, .record key)) :
    ∃ yes depth, moves.answers[i]? = some (.fresh yes, depth)
      ∧ (yes = true ↔ openScopes (moves.take i) c = []
        ∨ ∃ scope, (openScopes (moves.take i) c).head? = some scope
          ∧ ∀ j < i, ∀ d, ¬ moves.Asks j d key scope) := by
  obtain ⟨birth, htracks⟩ := exists_tracks (moves.take i)
  have hyes := htracks.record_fst_eq_true_iff c key
  simp only [asked_take_iff, not_exists, not_and] at hyes
  exact ⟨_, _, getElem?_answers h, hyes⟩

theorem answer_asks_iff {moves : Moves} {i : Nat} {c : Context} {key : String} {scope : Nat}
    (h : moves.Asks i c key scope) :
    (∃ depth, moves.answers[i]? = some (.fresh true, depth))
      ↔ ∀ j < i, ∀ d, ¬ moves.Asks j d key scope := by
  obtain ⟨yes, depth, hanswer, hyes⟩ := answer_record h.1
  have hne : openScopes (moves.take i) c ≠ [] := by
    intro hnil
    have hhead := h.2
    rw [hnil] at hhead
    cases hhead
  simp only [hne, h.2, Option.some.injEq, exists_eq_left', false_or] at hyes
  rw [← hyes, hanswer]
  simp

/-- **Each style once in each scope.** A question is answered with yes exactly if the context has
no open scope, or no earlier question for the same key, from whatever context, was put while that
same scope was its caller's innermost one. Hence a scope that is asked for a key at all says yes
to exactly one of these questions. -/
theorem answers_record_iff (moves : Moves) :
    (∀ i c key, moves[i]? = some (c, .record key) →
      ∃ yes depth, moves.answers[i]? = some (.fresh yes, depth)
        ∧ (yes = true ↔ openScopes (moves.take i) c = []
          ∨ ∃ scope, (openScopes (moves.take i) c).head? = some scope
            ∧ ∀ j < i, ∀ d, ¬ moves.Asks j d key scope))
    ∧ ∀ scope key, moves.Asked scope key →
      ∃! i, ∃ c depth, moves.Asks i c key scope
        ∧ moves.answers[i]? = some (.fresh true, depth) := by
  refine ⟨fun i c key h => answer_record h, ?_⟩
  intro scope key hasked
  classical
  have hfirst : ∃ i, ∃ c, moves.Asks i c key scope := hasked
  obtain ⟨c, hc⟩ := Nat.find_spec hfirst
  have hnone : ∀ j < Nat.find hfirst, ∀ d, ¬ moves.Asks j d key scope :=
    fun j hj d hd => Nat.find_min hfirst hj ⟨d, hd⟩
  obtain ⟨depth, hyes⟩ := (answer_asks_iff hc).mpr hnone
  refine ⟨Nat.find hfirst, ⟨c, depth, hc, hyes⟩, ?_⟩
  rintro i ⟨d, depth', hd, hyes'⟩
  have hle : Nat.find hfirst ≤ i := Nat.find_min' hfirst ⟨d, hd⟩
  rcases Nat.lt_or_eq_of_le hle with hlt | heq
  · exact absurd hc ((answer_asks_iff hd).mp ⟨depth', hyes'⟩ _ hlt c)
  · exact heq.symm

/-- A task marks the scope that it has from its creator, and not while a scope of its own is
open. -/
def handover : Moves :=
  [("main", .push), ("main", .task "worker"), ("worker", .push), ("worker", .record "card"),
   ("worker", .pop), ("worker", .record "card"), ("main", .record "card")]

theorem answers_record_handover :
    handover[6]? = some ("main", .record "card") ∧ handover.Asked 0 "card"
      ∧ (∃ depth, handover.answers[6]? = some (.fresh false, depth))
      ∧ ∃! i, ∃ c depth, handover.Asks i c "card" 0
        ∧ handover.answers[i]? = some (.fresh true, depth) := by
  have hworker : handover.Asks 5 "worker" "card" 0 := ⟨rfl, by decide⟩
  obtain ⟨hquestion, honce⟩ := answers_record_iff handover
  obtain ⟨yes, depth, hanswer, hyes⟩ := hquestion 6 "main" "card" rfl
  have hno : yes = false := by
    refine Bool.eq_false_iff.mpr fun htrue => ?_
    rcases hyes.mp htrue with hnil | ⟨scope, hscope, hfree⟩
    · exact absurd hnil (by decide)
    · have hmain : (openScopes (handover.take 6) "main").head? = some 0 := by decide
      obtain rfl := Option.some.inj (hmain.symm.trans hscope)
      exact hfree 5 (by decide) "worker" hworker
  exact ⟨rfl, ⟨5, "worker", hworker⟩, ⟨depth, hno ▸ hanswer⟩,
    honce 0 "card" ⟨5, "worker", hworker⟩⟩

end Moves

end Cascade
