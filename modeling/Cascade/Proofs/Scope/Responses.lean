import Cascade.Proofs.Scope.Alike
import Cascade.Proofs.Scope.Brackets
import Cascade.Proofs.Scope.Elements

/-!
# Responses

A server answers one request after the other in one context, and what went before may have left
scopes open. A request whose actions never go below its own scope is answered as if it were the
only one, and in its own scope emits each style once.

For the first part the scopes of the request are matched with those of a request that is alone
(`Twins.alike`). For the second, the calls of the request are calls in one scope, its own
(`Visit.asks_iff`), and what holds of these is known. The main statement is
`responses_independent`.
-/

namespace Cascade

/-! ## With a past and without -/

namespace Scopes

/-- While scopes of its own are open, a body is answered alike whatever lies below them. -/
theorem Twins.alike {c : Context} {own : List (Nat × Nat)} {left right : List Nat} {s t : Scopes}
    {moves : List Move} {k : Nat} (h : Twins c own left right s t)
    (hlength : left.length = right.length + k)
    (habove : s.StaysAbove c (left.length + 1) moves) (hthread : ∀ new, Move.thread new ∉ moves) :
    Alike c k s t moves := by
  have hdepth : s.depth c = t.depth c + k := by
    have hadd := h.depth_add
    omega
  induction moves generalizing own s t with
  | nil => exact hdepth
  | cons move rest ih =>
    have hrest : ∀ new, Move.thread new ∉ rest := fun new hnew =>
      hthread new (List.mem_cons_of_mem move hnew)
    cases own with
    | nil =>
      -- The depth is above that of what lies below, so a scope of its own is open.
      have hopen := habove.le
      rw [depth, h.stack_left] at hopen
      exact absurd hopen (Nat.not_succ_le_self _)
    | cons pair own =>
      have hnext : ∃ own', Twins c own' left right (move.next c s) (move.next c t) := by
        cases move with
        | push => exact ⟨_, h.push⟩
        | pop => exact ⟨_, h.pop⟩
        | record key => exact ⟨_, (h.record key).2⟩
        | thread new => exact absurd List.mem_cons_self (hthread new)
        | task new =>
          have hstack : ∀ u : Scopes, (u.task c new).stack c = u.stack c := fun u => by
            rw [task, stack_setStack, ite_self]
          exact ⟨_, h.congr (hstack s) (hstack t) (Nat.le_refl _) (Nat.le_refl _) h.seen_eq⟩
      obtain ⟨own', hown⟩ := hnext
      refine ⟨hdepth, fun key _ => (h.record key).1, ?_, ih hown habove.2 hrest ?_⟩
      · rintro new rfl
        exact absurd List.mem_cons_self (hthread new)
      · have hadd := hown.depth_add
        omega

end Scopes

namespace Visit

variable {c : Context}

theorem getElem?_runAll {visits : List Visit} {i : Nat} {visit : Visit}
    (h : visits[i]? = some visit) (s : Session) :
    (runAll c s visits).1[i]? = some (visit.run c (runAll c s (visits.take i)).2).1 := by
  induction visits generalizing i s with
  | nil => cases h
  | cons first rest ih =>
    cases i with
    | zero =>
      obtain rfl := Option.some.inj h
      rfl
    | succ i => exact ih h _

/-- The answers of a request, and the depth behind it. -/
theorem run_request (s : Session) (actions : List Action) :
    (run c s (.request false actions)).1 =
      (.request (if (Action.runAll c (s.push c) actions).2.1 then 500 else 200)
          (Step.runAll c (s.push c) (Action.executed actions)).1,
        (Step.runAll c (s.push c) (Action.executed actions)).2.scopes.depth c - 1) := by
  rw [← Action.runAll_fst, ← Action.session_runAll, ← Scopes.depth_pop, ← Session.scopes_pop]
  rfl

theorem run_request_alike {s : Session} {actions : List Action}
    (hopen : Step.StaysOpen c (s.push c) (Action.executed actions))
    (hthread : ∀ new, Move.thread new ∉ Step.movesAll (Action.executed actions)) :
    ∃ status answers depth,
      (run c {} (.request false actions)).1 = (.request status answers, depth)
      ∧ (run c s (.request false actions)).1 =
          (.request status (Answer.deepenAll (s.scopes.depth c) answers),
            depth + s.scopes.depth c) := by
  have hpush : (s.push c).scopes.depth c = s.scopes.depth c + 1 := s.scopes.depth_push c
  have habove := hopen.staysAbove
  rw [hpush] at habove
  -- The two scopes that the requests open are the only ones that correspond to each other.
  have htwins : Scopes.Twins c [(s.scopes.opened, 0)] (s.scopes.stack c) [] (s.push c).scopes
      (Session.push {} c).scopes :=
    Scopes.Twins.push (s := s.scopes) (t := {}) (.of_stacks rfl rfl)
  have halike : Scopes.Alike c (s.scopes.depth c) (s.push c).scopes (Session.push {} c).scopes
      (Step.movesAll (Action.executed actions) ++ []) := by
    rw [List.append_nil]
    exact htwins.alike (Nat.zero_add _).symm habove hthread
  have hanswers := Step.runAll_alike _ halike
  have hdepth := halike.after.depth_eq
  have hlast := habove.last
  rw [← Step.scopes_runAll] at hlast
  rw [← Step.scopes_runAll, ← Step.scopes_runAll] at hdepth
  refine ⟨_, _, _, run_request {} actions, ?_⟩
  rw [run_request, hanswers, Action.failed_runAll c (s.push c) (Session.push {} c)]
  refine Prod.ext rfl ?_
  show (Step.runAll c (s.push c) (Action.executed actions)).2.scopes.depth c - 1 =
    (Step.runAll c (Session.push {} c) (Action.executed actions)).2.scopes.depth c - 1
      + s.scopes.depth c
  omega

end Visit

/-! ## Requests -/

namespace Visit

/-- Step `i` of a request that finds session `s` asks for a style element, while the innermost
scope is the one that the request has opened. -/
structure Asks (c : Context) (s : Session) (steps : List Step) (i : Nat) (name css : String) :
    Prop where
  call : steps[i]?.bind Step.tagCall? = some (name, css)
  nonempty : css ≠ ""
  innermost : ((Step.runAll c (s.push c) (steps.take i)).2.scopes.stack c).head? =
    some s.scopes.opened

/-- A step before step `i` asks so for a style of the same name and checksum. -/
def AsksEarlier (c : Context) (s : Session) (steps : List Step) (i : Nat) (name css : String) :
    Prop :=
  ∃ j < i, ∃ css', Asks c s steps j name css'
    ∧ Checksum.mixNat (Text.units css') = Checksum.mixNat (Text.units css)

variable {c : Context} {s : Session} {steps : List Step} {i : Nat} {name css : String}

/-- The calls of a request in its own scope are those of a run of one context. -/
theorem asks_iff :
    Asks c s steps i name css ↔
      css ≠ "" ∧ Session.Calls (s.push c) (steps.map fun step => (c, step)) s.scopes.opened i name
        css := by
  simp only [Session.Calls, Session.takenIn_map_iff]
  constructor
  · rintro ⟨hcall, hcss, hhead⟩
    obtain ⟨step, hstep, hcall⟩ := Option.bind_eq_some_iff.mp hcall
    exact ⟨hcss, step, ⟨hstep, hhead⟩, hcall⟩
  · rintro ⟨hcss, step, ⟨hstep, hhead⟩, hcall⟩
    exact ⟨Option.bind_eq_some_iff.mpr ⟨step, hstep, hcall⟩, hcss, hhead⟩

theorem asksEarlier_iff :
    AsksEarlier c s steps i name css ↔
      Session.CalledBefore (s.push c) (steps.map fun step => (c, step)) s.scopes.opened i name
        css := by
  simp only [AsksEarlier, Session.CalledBefore, asks_iff, and_assoc, and_left_comm]

theorem Asks.getElem?_runAll (h : Asks c s steps i name css)
    (hflat : ∀ p ∈ steps, Step.spell [.push] [.pop] p = [p])
    (hdirect : Step.record (Scopes.styleKey name css) ∉ steps) :
    (AsksEarlier c s steps i name css →
      ((Step.runAll c (s.push c) steps).1.map Prod.fst)[i]? = some (.markup ""))
    ∧ (¬ AsksEarlier c s steps i name css →
      ((Step.runAll c (s.push c) steps).1.map Prod.fst)[i]? =
        some (.markup ("<style>" ++ css ++ "</style>"))) := by
  obtain ⟨hcss, hcall⟩ := asks_iff.mp h
  have hnew : (s.push c).scopes.seen s.scopes.opened = [] := by simp [Session.push, Session.note]
  have hother : ∀ j < i, ¬ Session.TakenIn (s.push c) (steps.map fun step => (c, step))
      s.scopes.opened j (.record (Scopes.styleKey name css)) := fun j _ htaken =>
    hdirect (List.mem_of_getElem? (Session.takenIn_map_iff.mp htaken).1)
  obtain ⟨element, hanswer, hempty, hfull⟩ := hcall.element_eq_empty_iff
    (List.forall_mem_map.mpr hflat) (Nat.lt_succ_self _) hnew hother
  rw [or_iff_right hcss, ← asksEarlier_iff] at hempty
  rw [Session.run_map] at hanswer
  constructor
  · intro hearlier
    rw [hanswer, hempty.mpr hearlier]
  · intro hnone
    rw [hanswer, hfull (mt hempty.mp hnone)]

/-- **Responses are independent, and emit each style once.** Take any request of a server that
opens its scope. If its actions never go below that scope (and none makes a thread, which has a
depth of its own), it is answered as on a fresh server, but for the depths, which are those of a
fresh server and the depth before the request. And of the steps that ask the scope of the request
itself for a style element, from wherever, exactly the first with a given name and checksum gets
it, unless the key of the style is recorded by name. -/
theorem responses_independent (c : Context) (visits : List Visit) (i : Nat)
    (actions : List Action) (hi : visits[i]? = some (.request false actions)) :
    let s := (runAll c {} (visits.take i)).2
    let body := Action.executed actions
    (Step.StaysOpen c (s.push c) body → (∀ new, Move.thread new ∉ Step.movesAll body) →
      ∃ status answers depth,
        (runAll c {} [.request false actions]).1 = [(.request status answers, depth)]
        ∧ (runAll c {} visits).1[i]? =
            some (.request status (Answer.deepenAll (s.scopes.depth c) answers),
              depth + s.scopes.depth c))
    ∧ ∃ status answers depth,
        (runAll c {} visits).1[i]? = some (.request status answers, depth)
        ∧ ∀ j name css, Asks c s (Step.flat body) j name css →
            Step.record (Scopes.styleKey name css) ∉ Step.flat body →
            (AsksEarlier c s (Step.flat body) j name css →
              (Answer.flatAll answers)[j]? = some (.markup ""))
            ∧ (¬ AsksEarlier c s (Step.flat body) j name css →
              (Answer.flatAll answers)[j]? =
                some (.markup ("<style>" ++ css ++ "</style>"))) := by
  intro s body
  have hanswer : (runAll c {} visits).1[i]? = some (run c s (.request false actions)).1 :=
    getElem?_runAll hi {}
  rw [hanswer]
  constructor
  · intro hopen hthread
    obtain ⟨status, answers, depth, hfresh, hhere⟩ := run_request_alike hopen hthread
    refine ⟨status, answers, depth, ?_, congrArg some hhere⟩
    rw [← hfresh]
    rfl
  · rw [run_request]
    refine ⟨_, _, _, rfl, fun j name css hasks hdirect => ?_⟩
    obtain ⟨-, hanswers⟩ := Step.runAll_flat c body (s.push c)
    rw [← hanswers]
    exact hasks.getElem?_runAll (fun p hp => Step.spell_of_mem_flat hp) hdirect

/-- A request that finds two open scopes, one of them left by a request that failed, and fails
itself. Of its three calls for one style, the first is made in a scope of its own. -/
theorem responses_independent_leftover :
    let actions : List Action :=
      [.step (.bracket [.tag .call "card" "p"] true), .step (.tag .template "card" "p"),
       .step (.tag .extension "card" "p"), .step .depth, .boom, .step .pop]
    let visits : List Visit :=
      [.step .push, .step (.tag .call "card" "p"), .request false [.step .push, .boom],
       .request false actions]
    let s := (runAll "main" {} (visits.take 3)).2
    visits[3]? = some (.request false actions)
    ∧ Step.StaysOpen "main" (s.push "main") (Action.executed actions)
    ∧ ∃ status answers depth,
        (runAll "main" {} [.request false actions]).1 = [(.request status answers, depth)]
        ∧ (runAll "main" {} visits).1[3]? =
            some (.request status (Answer.deepenAll 2 answers), depth + 2)
        ∧ (Answer.flatAll (Answer.deepenAll 2 answers))[3]? = some (.markup "<style>p</style>")
        ∧ (Answer.flatAll (Answer.deepenAll 2 answers))[4]? = some (.markup "") := by
  intro actions visits s
  obtain ⟨halone, status', answers', depth', hanswer', hstyles⟩ :=
    responses_independent "main" visits 3 actions rfl
  have hopen : Step.StaysOpen "main" (s.push "main") (Action.executed actions) := by
    unfold Step.StaysOpen
    decide +kernel
  have hthread : ∀ new, Move.thread new ∉ Step.movesAll (Action.executed actions) := by
    intro new hnew
    have hall : ((Step.movesAll (Action.executed actions)).all fun move =>
        match move with
        | .thread _ => false
        | _ => true) = true := by decide +kernel
    exact absurd (List.all_eq_true.mp hall _ hnew) Bool.false_ne_true
  obtain ⟨status, answers, depth, hfresh, hanswer⟩ := halone hopen hthread
  have hdepth : s.scopes.depth "main" = 2 := by decide +kernel
  rw [hdepth] at hanswer
  rw [hanswer, Option.some.injEq, Prod.mk.injEq, VisitAnswer.request.injEq] at hanswer'
  obtain ⟨⟨-, rfl⟩, -⟩ := hanswer'
  have hdirect :
      Step.record (Scopes.styleKey "card" "p") ∉ Step.flat (Action.executed actions) := by
    simp [actions, Action.executed, Step.flat, Step.spellAll, Step.spell]
  have hfirst : Asks "main" s (Step.flat (Action.executed actions)) 3 "card" "p" :=
    ⟨rfl, by decide, by decide +kernel⟩
  have hsecond : Asks "main" s (Step.flat (Action.executed actions)) 4 "card" "p" :=
    ⟨rfl, by decide, by decide +kernel⟩
  refine ⟨rfl, hopen, status, answers, depth, hfresh, hanswer, ?_, ?_⟩
  · refine (hstyles 3 "card" "p" hfirst hdirect).2 ?_
    rintro ⟨j, hj, css, hearlier, -⟩
    rcases j with _ | _ | _ | j
    · cases hearlier.call
    · exact absurd hearlier.innermost (by decide +kernel)
    · cases hearlier.call
    · omega
  · exact (hstyles 4 "card" "p" hsecond hdirect).1 ⟨3, by decide, "p", hfirst, rfl⟩

end Visit

end Cascade
