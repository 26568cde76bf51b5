import Cascade.Proofs.Scope.Alike
import Cascade.Proofs.Scope.Depth
import Cascade.Proofs.Scope.History

/-!
# Contexts that keep to themselves

Contexts share scopes: a task has the very scopes that its creator had open. A context that puts
its questions only to scopes of its own (`Moves.Own`: opened by itself and not handed on to a
task) is answered all the same as if no other context did anything.

The proof runs both sides at once. `Apart` holds between a run and the run in which the other
contexts stand still: the innermost scopes of the context correspond to each other, no other
context has them, and everything below them is foreign. `Apart.own_next` and `Apart.other_next`
take it through the moves of the context and through those of the others; the main statement is
`isolated`.
-/

namespace Cascade

namespace Moves

/-! ## What is a context's own -/

/-- The moves of a run of steps. -/
def ofSteps (steps : List (Context × Step)) : Moves :=
  steps.flatMap fun (c, step) => step.moves.map fun move => (c, move)

/-- A scope that context `c` has opened itself, at move `start` or later, and that no task was
made with. -/
structure Own (past : Moves) (start : Nat) (c : Context) (scope : Nat) : Prop where
  pushed : past[scope]? = some (c, .push)
  late : start ≤ scope
  kept : ∀ j new, past[j]? = some (c, .task new) → scope ∉ openScopes (past.take j) c

/-- The context has no open scope, or its innermost one is its own. -/
def AsksOwn (past : Moves) (start : Nat) (c : Context) : Prop :=
  past.openScopes c = []
  ∨ ∃ scope, (past.openScopes c).head? = some scope ∧ past.Own start c scope

/-- All questions that context `c` puts in `later` are put to no scope or to one of its own. -/
def KeepsToItself (start : Nat) (c : Context) (past later : Moves) : Prop :=
  ∀ i key, later[i]? = some (c, .record key) → AsksOwn (past ++ later.take i) start c

/-- The context is not made by any of the moves. -/
def NeverMade (c : Context) (moves : Moves) : Prop :=
  ∀ entry ∈ moves, entry.2 ≠ .thread c ∧ entry.2 ≠ .task c

variable {past later : Moves} {start : Nat} {c d : Context} {move : Move}

instance : Decidable (NeverMade c past) :=
  inferInstanceAs (Decidable (∀ entry ∈ past, entry.2 ≠ .thread c ∧ entry.2 ≠ .task c))

instance : Decidable (∃ new, move = .task new) :=
  match move with
  | .task new => .isTrue ⟨new, rfl⟩
  | .push | .pop | .record _ | .thread _ => .isFalse nofun

instance : Decidable (∃ key, move = .record key) :=
  match move with
  | .record key => .isTrue ⟨key, rfl⟩
  | .push | .pop | .thread _ | .task _ => .isFalse nofun

-- The definitions speak of all places and all keys; listed entry by entry they can be evaluated.

theorem own_iff_zipIdx {scope : Nat} :
    past.Own start c scope ↔
      past[scope]? = some (c, .push) ∧ start ≤ scope
      ∧ ∀ entry ∈ past.zipIdx, entry.1.1 = c → (∃ new, entry.1.2 = .task new) →
          scope ∉ openScopes (past.take entry.2) c := by
  constructor
  · rintro ⟨hpushed, hlate, hkept⟩
    refine ⟨hpushed, hlate, ?_⟩
    rintro ⟨⟨d, move⟩, j⟩ hentry hd ⟨new, hnew⟩
    obtain rfl : d = c := hd
    obtain rfl : move = .task new := hnew
    exact hkept j new (List.mem_zipIdx_iff_getElem?.mp hentry)
  · rintro ⟨hpushed, hlate, hall⟩
    refine ⟨hpushed, hlate, fun j new hj => ?_⟩
    exact hall ((c, .task new), j) (List.mem_zipIdx_iff_getElem?.mpr hj) rfl ⟨new, rfl⟩

theorem keepsToItself_iff_zipIdx :
    KeepsToItself start c past later ↔
      ∀ entry ∈ later.zipIdx, entry.1.1 = c → (∃ key, entry.1.2 = .record key) →
        AsksOwn (past ++ later.take entry.2) start c := by
  constructor
  · rintro h ⟨⟨d, move⟩, i⟩ hentry hd ⟨key, hkey⟩
    obtain rfl : d = c := hd
    obtain rfl : move = .record key := hkey
    exact h i key (List.mem_zipIdx_iff_getElem?.mp hentry)
  · intro h i key hi
    exact h ((c, .record key), i) (List.mem_zipIdx_iff_getElem?.mpr hi) rfl ⟨key, rfl⟩

instance {scope : Nat} : Decidable (Own past start c scope) :=
  decidable_of_iff _ own_iff_zipIdx.symm

instance : Decidable (AsksOwn past start c) :=
  inferInstanceAs (Decidable (_ ∨ ∃ scope ∈ (past.openScopes c).head?, past.Own start c scope))

instance : Decidable (KeepsToItself start c past later) :=
  decidable_of_iff _ keepsToItself_iff_zipIdx.symm

@[simp] theorem ofSteps_cons (c : Context) (step : Step) (rest : List (Context × Step)) :
    ofSteps ((c, step) :: rest) = step.moves.map (fun move => (c, move)) ++ ofSteps rest := rfl

theorem KeepsToItself.head {key : String}
    (h : KeepsToItself start c past ((c, .record key) :: later)) : AsksOwn past start c := by
  have := h 0 key rfl
  rwa [List.take_zero, List.append_nil] at this

theorem KeepsToItself.tail {entry : Context × Move}
    (h : KeepsToItself start c past (entry :: later)) :
    KeepsToItself start c (past ++ [entry]) later := by
  intro i key hi
  have := h (i + 1) key hi
  rwa [List.take_succ_cons, ← List.singleton_append, ← List.append_assoc] at this

/-- A move of another context leaves the open scopes of `c` alone, unless it makes `c`. -/
theorem openScopes_concat_of_ne (hd : d ≠ c) (hmade : move ≠ .thread c ∧ move ≠ .task c) :
    openScopes (past ++ [(d, move)]) c = past.openScopes c := by
  rw [openScopes_concat]
  cases move with
  | push => exact if_neg hd
  | pop => exact if_neg hd
  | record key => rfl
  | thread new => exact if_neg fun (h : c = new) => hmade.1 (h ▸ rfl)
  | task new => exact if_neg fun (h : c = new) => hmade.2 (h ▸ rfl)

/-- What is not the context's own does not become so. -/
theorem not_own_concat {entry : Context × Move} {scopes : List Nat}
    (hsub : ∀ scope ∈ scopes, scope ∈ past.openScopes c)
    (h : ∀ scope ∈ scopes, ¬ past.Own start c scope) :
    ∀ scope ∈ scopes, ¬ Own (past ++ [entry]) start c scope := by
  intro scope hscope hown
  have hlt : scope < past.length := lt_of_mem_openScopes (hsub scope hscope)
  refine h scope hscope ⟨?_, hown.late, fun j new hj => ?_⟩
  · have hpushed := hown.pushed
    rwa [List.getElem?_append_left hlt] at hpushed
  · have hlen : j < past.length := (List.getElem?_eq_some_iff.mp hj).1
    have hkept := hown.kept j new (by rwa [List.getElem?_append_left hlen])
    rwa [List.take_append_of_le_length (Nat.le_of_lt hlen)] at hkept

/-- Once a task is made, no open scope is the context's own. -/
theorem not_own_concat_task {new : Context} :
    ∀ scope ∈ past.openScopes c, ¬ Own (past ++ [(c, .task new)]) start c scope := by
  intro scope hscope hown
  have hkept := hown.kept past.length new List.getElem?_concat_length
  rw [List.take_left] at hkept
  exact hkept hscope

end Moves

theorem Tracks.length_stack {past : Moves} {s : Scopes} {birth : Nat → Nat}
    (h : Tracks past s birth) (c : Context) :
    (s.stack c).length = (past.openScopes c).length := by
  rw [← h.stack_eq c, List.length_map]

theorem Tracks.exists_after {past : Moves} {s : Scopes} (h : ∃ birth, Tracks past s birth)
    (c : Context) (moves : List Move) :
    ∃ birth, Tracks (past ++ moves.map fun move => (c, move)) (s.after c moves) birth := by
  induction moves generalizing past s with
  | nil => rwa [List.map_nil, List.append_nil]
  | cons move rest ih =>
    obtain ⟨birth, htracks⟩ := h
    have hrest := ih (htracks.next c move)
    rwa [List.append_assoc, List.singleton_append] at hrest

/-! ## With the others and without -/

/-- A context that moves leaves the stack of another alone, unless it makes it. -/
theorem Scopes.stack_next_of_ne {c d : Context} {s : Scopes} {move : Move} (hd : d ≠ c)
    (hmade : move ≠ .thread c ∧ move ≠ .task c) : (move.next d s).stack c = s.stack c := by
  cases move with
  | push => exact if_neg hd.symm
  | pop => exact if_neg hd.symm
  | record key => rw [Move.next, Scopes.stack_record]
  | thread new => exact if_neg fun (hc : c = new) => hmade.1 (hc ▸ rfl)
  | task new => exact if_neg fun (hc : c = new) => hmade.2 (hc ▸ rfl)

/-- `s` comes from a run with all contexts and `t` from the one in which only `c` moves from
`start` on. The scopes `own` are open in `c` alone, and those below them are foreign. -/
structure Apart (start : Nat) (c : Context) (past : Moves) (s t : Scopes) (own : List (Nat × Nat))
    (left right : List Nat) : Prop where
  tracks : ∃ birth, Tracks past s birth
  twins : Scopes.Twins c own left right s t
  length_eq : left.length = right.length
  unshared : ∀ pair ∈ own, ∀ d ≠ c, pair.1 ∉ s.stack d
  foreign : ∀ scope ∈ (past.openScopes c).drop own.length, ¬ past.Own start c scope

namespace Apart

variable {start : Nat} {c d : Context} {past : Moves} {s t : Scopes} {own : List (Nat × Nat)}
  {left right : List Nat} {move : Move}

theorem depth_eq (h : Apart start c past s t own left right) : s.depth c = t.depth c := by
  have hadd := h.twins.depth_add
  have hlength := h.length_eq
  omega

theorem exists_tracks_next (h : Apart start c past s t own left right) (d : Context)
    (move : Move) :
    ∃ birth, Tracks (past ++ [(d, move)]) (move.next d s) birth := by
  obtain ⟨birth, htracks⟩ := h.tracks
  exact htracks.next d move

/-- Another context moves: it does not have the scopes of `c`, so it does not reach them. -/
theorem other_next (h : Apart start c past s t own left right) (hd : d ≠ c)
    (hmade : move ≠ .thread c ∧ move ≠ .task c) :
    Apart start c (past ++ [(d, move)]) (move.next d s) t own left right := by
  have hopen : Moves.openScopes (past ++ [(d, move)]) c = past.openScopes c :=
    Moves.openScopes_concat_of_ne hd hmade
  refine ⟨h.exists_tracks_next d move, ?_, h.length_eq, ?_, ?_⟩
  · have hkeep : ∀ pair ∈ own, (move.next d s).seen pair.1 = t.seen pair.2 := by
      intro pair hpair
      rw [← h.twins.seen_eq pair hpair]
      cases move with
      | push => exact if_neg (Nat.ne_of_lt (h.twins.lt_left pair hpair))
      | record key =>
        refine Scopes.seen_record_of_ne s d key fun hhead => ?_
        exact h.unshared pair hpair d hd (List.mem_of_mem_head? hhead)
      | _ => rfl
    exact h.twins.congr (Scopes.stack_next_of_ne hd hmade) rfl Scopes.opened_le_next
      (Nat.le_refl _)
      hkeep
  · intro pair hpair e he hmem
    rcases Scopes.mem_stack_next hmem with ⟨-, hnew⟩ | hmem | hmem
    · exact Nat.ne_of_lt (h.twins.lt_left pair hpair) hnew
    · exact h.unshared pair hpair d hd hmem
    · exact h.unshared pair hpair e he hmem
  · rw [hopen]
    exact Moves.not_own_concat (fun scope => List.mem_of_mem_drop) h.foreign

theorem own_push (h : Apart start c past s t own left right) :
    Apart start c (past ++ [(c, .push)]) (s.push c) (t.push c) ((s.opened, t.opened) :: own)
      left right := by
  obtain ⟨birth, htracks⟩ := h.tracks
  refine ⟨h.exists_tracks_next c .push, h.twins.push, h.length_eq, ?_, ?_⟩
  · have hold : ∀ d ≠ c, (s.push c).stack d = s.stack d := fun d hd => if_neg hd
    refine List.forall_mem_cons.mpr ⟨fun d hd hmem => ?_, fun pair hpair d hd hmem => ?_⟩
    · rw [hold d hd] at hmem
      exact Nat.lt_irrefl _ (htracks.stack_lt d _ hmem)
    · rw [hold d hd] at hmem
      exact h.unshared pair hpair d hd hmem
  · have hopen :
        Moves.openScopes (past ++ [(c, .push)]) c = past.length :: past.openScopes c := by
      rw [Moves.openScopes_concat]
      exact if_pos rfl
    rw [hopen, List.length_cons, List.drop_succ_cons]
    exact Moves.not_own_concat (fun scope => List.mem_of_mem_drop) h.foreign

theorem own_pop (h : Apart start c past s t own left right) :
    ∃ own' left' right',
      Apart start c (past ++ [(c, .pop)]) (s.pop c) (t.pop c) own' left' right' := by
  have hopen : Moves.openScopes (past ++ [(c, .pop)]) c = (past.openScopes c).tail := by
    rw [Moves.openScopes_concat]
    exact if_pos rfl
  have hold : ∀ d ≠ c, (s.pop c).stack d = s.stack d := fun d hd => if_neg hd
  cases own with
  | nil =>
    -- A foreign scope is closed; as many are open on both sides, so this happens on both.
    refine ⟨[], left.tail, right.tail, h.exists_tracks_next c .pop, ?_, ?_,
      List.forall_mem_nil _, ?_⟩
    · refine .of_stacks ?_ ?_
      · rw [Scopes.stack_pop, if_pos rfl, h.twins.stack_left]
        rfl
      · rw [Scopes.stack_pop, if_pos rfl, h.twins.stack_right]
        rfl
    · rw [List.length_tail, List.length_tail, h.length_eq]
    · rw [hopen]
      refine Moves.not_own_concat (fun scope => List.mem_of_mem_tail) fun scope hscope => ?_
      exact h.foreign scope (List.mem_of_mem_tail hscope)
  | cons pair own =>
    refine ⟨own, left, right, h.exists_tracks_next c .pop, h.twins.pop, h.length_eq, ?_, ?_⟩
    · intro pair hpair d hd
      rw [hold d hd]
      exact h.unshared pair (List.mem_cons_of_mem _ hpair) d hd
    · have hdrop : (past.openScopes c).tail.drop own.length =
          (past.openScopes c).drop (pair :: own).length := by
        rw [List.drop_tail, List.length_cons]
      rw [hopen, hdrop]
      exact Moves.not_own_concat (fun scope => List.mem_of_mem_drop) h.foreign

/-- The context asks a scope of its own or none, and is answered the same in both runs. -/
theorem own_record (h : Apart start c past s t own left right) (hasks : past.AsksOwn start c)
    (key : String) :
    (s.record c key).1 = (t.record c key).1
    ∧ Apart start c (past ++ [(c, .record key)]) (s.record c key).2 (t.record c key).2
        own left right := by
  have hopen : Moves.openScopes (past ++ [(c, .record key)]) c = past.openScopes c :=
    Moves.openScopes_concat ..
  have hforeign : ∀ scope ∈ (Moves.openScopes (past ++ [(c, .record key)]) c).drop own.length,
      ¬ Moves.Own (past ++ [(c, .record key)]) start c scope := by
    rw [hopen]
    exact Moves.not_own_concat (fun scope => List.mem_of_mem_drop) h.foreign
  have hunshared : ∀ pair ∈ own, ∀ d ≠ c, pair.1 ∉ (s.record c key).2.stack d := by
    rw [Scopes.stack_record]
    exact h.unshared
  have htracks := h.exists_tracks_next c (.record key)
  cases own with
  | nil =>
    -- All open scopes are foreign, so the question can only be put outside of scopes.
    have hnil : past.openScopes c = [] := by
      rcases hasks with hnil | ⟨scope, hhead, hown⟩
      · exact hnil
      · exact absurd hown (h.foreign scope (List.mem_of_mem_head? hhead))
    obtain ⟨birth, hbirth⟩ := h.tracks
    have hs : s.stack c = [] := by
      rw [← List.length_eq_zero_iff, hbirth.length_stack, hnil, List.length_nil]
    have ht : t.stack c = [] := by
      have hdepth := h.depth_eq
      rwa [Scopes.depth, Scopes.depth, hs, List.length_nil, eq_comm,
          List.length_eq_zero_iff] at hdepth
    have hrecord : (s.record c key).2 = s := by rw [Scopes.record_of_nil hs]
    have hrecord' : (t.record c key).2 = t := by rw [Scopes.record_of_nil ht]
    refine ⟨by rw [Scopes.record_of_nil hs, Scopes.record_of_nil ht], htracks, ?_, h.length_eq,
      hunshared, hforeign⟩
    rw [hrecord, hrecord']
    exact h.twins
  | cons pair own =>
    obtain ⟨hanswer, htwins⟩ := h.twins.record key
    exact ⟨hanswer, htracks, htwins, h.length_eq, hunshared, hforeign⟩

theorem own_thread (h : Apart start c past s t own left right) {new : Context} (hnew : new ≠ c) :
    Apart start c (past ++ [(c, .thread new)]) (s.thread new) (t.thread new) own left right := by
  have hopen : Moves.openScopes (past ++ [(c, .thread new)]) c = past.openScopes c := by
    rw [Moves.openScopes_concat]
    exact if_neg hnew.symm
  refine ⟨h.exists_tracks_next c (.thread new), ?_, h.length_eq, ?_, ?_⟩
  · exact h.twins.congr (if_neg hnew.symm) (if_neg hnew.symm) (Nat.le_refl _) (Nat.le_refl _)
      h.twins.seen_eq
  · intro pair hpair d hd hmem
    rw [Scopes.thread, Scopes.stack_setStack] at hmem
    split at hmem
    · cases hmem
    · exact h.unshared pair hpair d hd hmem
  · rw [hopen]
    exact Moves.not_own_concat (fun scope => List.mem_of_mem_drop) h.foreign

/-- With the task, all open scopes are given away. -/
theorem own_task (h : Apart start c past s t own left right) {new : Context} (hnew : new ≠ c) :
    Apart start c (past ++ [(c, .task new)]) (s.task c new) (t.task c new) []
      (s.stack c) (t.stack c) := by
  have hopen : Moves.openScopes (past ++ [(c, .task new)]) c = past.openScopes c := by
    rw [Moves.openScopes_concat]
    exact if_neg hnew.symm
  -- What was open in `c` alone is now open in the task as well, so nothing is left to correspond.
  refine ⟨h.exists_tracks_next c (.task new), ?_, h.depth_eq, List.forall_mem_nil _, ?_⟩
  · exact .of_stacks (if_neg hnew.symm) (if_neg hnew.symm)
  · rw [hopen]
    exact Moves.not_own_concat_task

theorem own_next (h : Apart start c past s t own left right)
    (hmade : move ≠ .thread c ∧ move ≠ .task c)
    (hasks : ∀ key, move = .record key → past.AsksOwn start c) :
    (∀ key, move = .record key → (s.record c key).1 = (t.record c key).1)
    ∧ ∃ own' left' right',
        Apart start c (past ++ [(c, move)]) (move.next c s) (move.next c t) own' left'
          right' := by
  cases move with
  | push => exact ⟨nofun, _, _, _, h.own_push⟩
  | pop => exact ⟨nofun, h.own_pop⟩
  | record key =>
    obtain ⟨hanswer, hnext⟩ := h.own_record (hasks key rfl) key
    refine ⟨fun other hother => ?_, _, _, _, hnext⟩
    obtain rfl := Move.record.inj hother
    exact hanswer
  | thread new => exact ⟨nofun, _, _, _, h.own_thread fun hc => hmade.1 (hc ▸ rfl)⟩
  | task new => exact ⟨nofun, _, _, _, h.own_task fun hc => hmade.2 (hc ▸ rfl)⟩

/-- The moves of the context itself are answered alike. -/
theorem own_after {later : Moves} {moves : List Move} (h : Apart start c past s t own left right)
    (hmade : Moves.NeverMade c (moves.map fun move => (c, move)))
    (hself : Moves.KeepsToItself start c past ((moves.map fun move => (c, move)) ++ later)) :
    Scopes.Alike c 0 s t moves
    ∧ ∃ own' left' right',
        Apart start c (past ++ moves.map fun move => (c, move)) (s.after c moves)
          (t.after c moves)
          own' left' right' := by
  induction moves generalizing past s t own left right with
  | nil =>
    refine ⟨h.depth_eq, own, left, right, ?_⟩
    rw [List.map_nil, List.append_nil]
    exact h
  | cons move rest ih =>
    obtain ⟨hhere, hrest⟩ := List.forall_mem_cons.mp hmade
    have hasks : ∀ key, move = .record key → past.AsksOwn start c := by
      rintro key rfl
      exact hself.head
    obtain ⟨hanswer, own', left', right', hnext⟩ := h.own_next hhere hasks
    obtain ⟨halike, hafter⟩ := ih hnext hrest hself.tail
    rw [List.append_assoc, List.singleton_append] at hafter
    exact ⟨⟨h.depth_eq, hanswer, fun _ _ => rfl, halike⟩, hafter⟩

theorem other_after {moves : List Move} (h : Apart start c past s t own left right) (hd : d ≠ c)
    (hmade : Moves.NeverMade c (moves.map fun move => (d, move))) :
    Apart start c (past ++ moves.map fun move => (d, move)) (s.after d moves) t own left
      right := by
  induction moves generalizing past s with
  | nil =>
    rw [List.map_nil, List.append_nil]
    exact h
  | cons move rest ih =>
    obtain ⟨hhere, hrest⟩ := List.forall_mem_cons.mp hmade
    have hafter := ih (h.other_next hd hhere) hrest
    rwa [List.append_assoc, List.singleton_append] at hafter

end Apart

/-! ## Answers of one context -/

namespace Session

/-- What the steps of context `c` are answered in a run of all contexts. -/
def answersOf (s : Session) (c : Context) (steps : List (Context × Step)) : List (Answer × Nat) :=
  ((steps.zip (s.run steps).1).filter fun entry => entry.1.1 = c).map Prod.snd

variable {c d : Context} {s t : Session} {step : Step} {rest : List (Context × Step)}

@[simp] theorem answersOf_nil : s.answersOf c [] = [] := rfl

theorem answersOf_cons_self :
    s.answersOf c ((c, step) :: rest) =
      (step.run c s).1 :: (step.run c s).2.answersOf c rest := by
  simp [answersOf, run]

theorem answersOf_cons_of_ne (hd : d ≠ c) :
    s.answersOf c ((d, step) :: rest) = (step.run d s).2.answersOf c rest := by
  simp [answersOf, run, hd]

theorem answersOf_append (a b : List (Context × Step)) :
    s.answersOf c (a ++ b) = s.answersOf c a ++ (s.run a).2.answersOf c b := by
  have hlength : a.length = (s.run a).1.length := (length_run s a).symm
  rw [answersOf, run_append, List.zip_append hlength, List.filter_append, List.map_append]
  rfl

theorem exists_tracks_run (steps : List (Context × Step)) :
    ∃ birth, Tracks (Moves.ofSteps steps) (run {} steps).2.scopes birth := by
  suffices h : ∀ (past : Moves) (s : Session), (∃ birth, Tracks past s.scopes birth) →
      ∃ birth, Tracks (past ++ Moves.ofSteps steps) (s.run steps).2.scopes birth by
    exact h [] {} ⟨id, .initial⟩
  induction steps with
  | nil =>
    intro past s h
    rwa [Moves.ofSteps, List.flatMap_nil, List.append_nil]
  | cons first rest ih =>
    intro past s h
    obtain ⟨c, step⟩ := first
    rw [Moves.ofSteps_cons, ← List.append_assoc]
    refine ih _ _ ?_
    rw [step.scopes_run c s]
    exact Tracks.exists_after h c step.moves

end Session

theorem Moves.neverMade_append {c : Context} {a b : Moves} (h : NeverMade c (a ++ b)) :
    NeverMade c a ∧ NeverMade c b :=
  List.forall_mem_append.mp h

theorem Moves.KeepsToItself.append {start : Nat} {c : Context} {past a b : Moves}
    (h : KeepsToItself start c past (a ++ b)) : KeepsToItself start c (past ++ a) b := by
  induction a generalizing past with
  | nil => rwa [List.append_nil]
  | cons entry rest ih =>
    have hrest := ih h.tail
    rwa [List.append_assoc, List.singleton_append] at hrest

/-- The context is answered the same with the others and without. -/
theorem Apart.answersOf_eq {start : Nat} {c : Context} {past : Moves} {s t : Session}
    {own : List (Nat × Nat)} {left right : List Nat} {rest : List (Context × Step)}
    (h : Apart start c past s.scopes t.scopes own left right)
    (hmade : Moves.NeverMade c (Moves.ofSteps rest))
    (hself : Moves.KeepsToItself start c past (Moves.ofSteps rest)) :
    s.answersOf c rest = t.answersOf c (rest.filter fun entry => entry.1 = c) := by
  induction rest generalizing past s t own left right with
  | nil => rfl
  | cons first rest ih =>
    obtain ⟨d, step⟩ := first
    rw [Moves.ofSteps_cons] at hmade hself
    obtain ⟨hhere, hlater⟩ := Moves.neverMade_append hmade
    by_cases hd : d = c
    · subst hd
      obtain ⟨halike, own', left', right', hnext⟩ := h.own_after hhere hself
      rw [← Step.scopes_run, ← Step.scopes_run] at hnext
      have hanswer : (step.run d s).1 = (step.run d t).1 := by
        rw [← List.append_nil step.moves] at halike
        rw [Step.run_alike step halike, Answer.deepen_zero]
        rfl
      rw [List.filter_cons_of_pos (by simp), Session.answersOf_cons_self,
        Session.answersOf_cons_self, hanswer, ih hnext hlater hself.append]
    · have hnext := h.other_after hd hhere
      rw [← Step.scopes_run] at hnext
      rw [List.filter_cons_of_neg (by simp [hd]), Session.answersOf_cons_of_ne hd,
        ih hnext hlater hself.append]

/-! ## Depths of one context -/

namespace Session

/-- Another context does not move the counter. -/
theorem depth_run_of_ne {c d : Context} {s : Session} {step : Step} (hd : d ≠ c)
    (hmade : Moves.NeverMade c (step.moves.map fun move => (d, move))) :
    (step.run d s).2.scopes.depth c = s.scopes.depth c := by
  rw [step.scopes_run d s]
  generalize step.moves = moves at hmade ⊢
  generalize s.scopes = scopes
  induction moves generalizing scopes with
  | nil => rfl
  | cons move rest ih =>
    obtain ⟨hhere, hrest⟩ := List.forall_mem_cons.mp hmade
    rw [Scopes.after_cons, ih hrest, Scopes.depth, Scopes.stack_next_of_ne hd hhere, Scopes.depth]

theorem depths_answersOf {c : Context} {s : Session} {rest : List (Context × Step)}
    (hmade : Moves.NeverMade c (Moves.ofSteps rest)) :
    Answer.depthsAll (s.answersOf c rest) =
      (Step.countAll (s.scopes.depth c)
        ((rest.filter fun entry => entry.1 = c).map Prod.snd)).1 := by
  induction rest generalizing s with
  | nil => rfl
  | cons first rest ih =>
    obtain ⟨d, step⟩ := first
    rw [Moves.ofSteps_cons] at hmade
    obtain ⟨hhere, hlater⟩ := Moves.neverMade_append hmade
    by_cases hd : d = c
    · subst hd
      have hthread : Move.thread d ∉ step.moves := fun h =>
        (hhere _ (List.mem_map_of_mem h)).1 rfl
      obtain ⟨hanswer, hdepth⟩ := Step.depths_run step s hthread
      rw [answersOf_cons_self, Answer.depthsAll_cons, hanswer, ih hlater, hdepth,
        List.filter_cons_of_pos (by simp), List.map_cons, Step.countAll]
    · rw [answersOf_cons_of_ne hd, ih hlater, depth_run_of_ne hd hhere,
        List.filter_cons_of_neg (by simp [hd])]

/-! ## Isolation -/

/-- **Contexts with scopes of their own are isolated.** Let `past` lead up to the making of
context `c` (to which nothing need lead, for a context that is there from the start). If all that
`c` asks later it asks outside of scopes or in a scope of its own, its steps are answered the
same, depths included, in the run from which all later steps of other contexts are deleted.
Whatever it asks, the depths that it is told are those of a counter that begins with the scopes it
came with and that its own pushes and pops alone move. -/
theorem isolated (c : Context) (past rest : List (Context × Step))
    (hmade : Moves.NeverMade c (Moves.ofSteps rest)) :
    (Moves.KeepsToItself (Moves.ofSteps past).length c (Moves.ofSteps past) (Moves.ofSteps rest) →
      answersOf {} c (past ++ rest)
        = answersOf {} c (past ++ rest.filter fun entry => entry.1 = c))
    ∧ Answer.depthsAll ((run {} past).2.answersOf c rest)
      = (Step.countAll ((run {} past).2.scopes.depth c)
          ((rest.filter fun entry => entry.1 = c).map Prod.snd)).1 := by
  refine ⟨fun hself => ?_, depths_answersOf hmade⟩
  have hstart : Apart (Moves.ofSteps past).length c (Moves.ofSteps past) (run {} past).2.scopes
      (run {} past).2.scopes [] ((run {} past).2.scopes.stack c)
      ((run {} past).2.scopes.stack c) := by
    refine ⟨exists_tracks_run past, .of_stacks rfl rfl, rfl, List.forall_mem_nil _, ?_⟩
    intro scope hscope hown
    exact absurd (Moves.lt_of_mem_openScopes hscope) (Nat.not_lt_of_le hown.late)
  rw [answersOf_append, answersOf_append, hstart.answersOf_eq hmade hself]

/-- A worker that came with a scope of its creator opens one of its own, and hands out its scopes
to a helper when that one is closed again. -/
theorem isolated_worker :
    let past : List (Context × Step) :=
      [("main", .push), ("main", .record "card"), ("main", .task "worker")]
    let rest : List (Context × Step) :=
      [("worker", .push), ("main", .record "menu"), ("worker", .record "card"),
       ("worker", .bracket [.record "card", .depth] true), ("main", .pop),
       ("worker", .record "menu"), ("worker", .pop), ("worker", .task "helper"),
       ("helper", .record "menu")]
    Moves.KeepsToItself (Moves.ofSteps past).length "worker" (Moves.ofSteps past)
      (Moves.ofSteps rest)
    ∧ answersOf {} "worker" (past ++ rest)
        = answersOf {} "worker" (past ++ rest.filter fun entry => entry.1 = "worker")
    ∧ Answer.depthsAll ((run {} past).2.answersOf "worker" rest) =
      [2, 2, 3, 3, 3, 2, 2, 1, 1] := by
  intro past rest
  have hmade : Moves.NeverMade "worker" (Moves.ofSteps rest) := by decide
  obtain ⟨hanswers, hdepths⟩ := isolated "worker" past rest hmade
  have hself : Moves.KeepsToItself (Moves.ofSteps past).length "worker" (Moves.ofSteps past)
      (Moves.ofSteps rest) := by
    decide +kernel
  exact ⟨hself, hanswers hself, hdepths⟩

end Session

end Cascade
