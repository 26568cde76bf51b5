import Cascade.Proofs.Checksum
import Cascade.Proofs.Scope.Inline
import Cascade.Text.Joined

/-!
# Style elements in one scope

Which calls for a style element get it, among all those that are made in one scope: by the context
that opened the scope or by others that have it from there, with other scopes opened and closed
between them.

What a scope has seen is told from the steps before (`Session.mem_seen_run`), and a key from the
name and the checksum that it stands for. A key is a name, a colon and a numeral; the numeral has
no colon, so the last colon of a key is where the name ends, whatever the name looks like. So a
call comes away empty exactly if its own text is empty, or an earlier call had the same name and
checksum (`element_withheld_iff`). Checksums are compared as numbers of any size,
`Checksum.mixNat`.
-/

namespace Cascade

/-! ## One step -/

namespace Scopes

theorem toList_styleKey (name css : String) :
    (styleKey name css).toList = name.toList ++ ':' :: (Checksum.ofCss css).toList := by
  rw [styleKey, String.toList_append, String.toList_append, List.append_assoc]
  rfl

/-- A key stands for one name and one checksum. -/
theorem styleKey_inj {name name' css css' : String} :
    styleKey name css = styleKey name' css' ↔
      name = name' ∧ Checksum.mixNat (Text.units css) = Checksum.mixNat (Text.units css') := by
  have hcolon : Base36.digitValue? ':' = none := by decide
  rw [← String.toList_inj, toList_styleKey, toList_styleKey,
    Text.append_separator_inj (Checksum.not_mem_ofCss hcolon css)
      (Checksum.not_mem_ofCss hcolon css'),
    String.toList_inj, String.toList_inj, Checksum.ofCss_inj_mixNat]

theorem element_ne_empty (css : String) : "<style>" ++ css ++ "</style>" ≠ "" := by
  simp

theorem tag_fst_eq {s : Scopes} {c : Context} {innermost : Nat} {rest : List Nat}
    (hstack : s.stack c = innermost :: rest) (name css : String) :
    (s.tag c name css).1 =
      if css = "" ∨ styleKey name css ∈ s.seen innermost then ""
      else "<style>" ++ css ++ "</style>" := by
  rw [tag_eq]
  by_cases hcss : css = ""
  · simp [hcss]
  · by_cases hkey : styleKey name css ∈ s.seen innermost
    · simp [hcss, hkey, record_of_mem hstack hkey]
    · simp [hcss, hkey, record_of_not_mem hstack hkey]

end Scopes

namespace Step

variable {c : Context} {s : Session} {scope : Nat} {key : String}

theorem move?_eq_record_iff (step : Step) :
    step.move? = some (.record key) ↔ step.key? = some key := by
  cases step with
  | push | pop | thread new | task new => simp [move?, key?, tagCall?]
  | _ => simp [move?, Option.map_eq_some_iff]

/-- A step asks for a key in its own name, or for that of a style element. -/
theorem key?_eq_some_iff (step : Step) :
    step.key? = some key ↔
      step = .record key
      ∨ ∃ name css, step.tagCall? = some (name, css) ∧ css ≠ ""
          ∧ Scopes.styleKey name css = key := by
  cases step with
  | record other => simp [key?, tagCall?]
  | _ => simp [key?, Option.bind_eq_some_iff]

theorem mem_seen_run {step : Step} (hflat : spell [push] [pop] step = [step])
    (hlt : scope < s.scopes.opened) :
    key ∈ (step.run c s).2.scopes.seen scope ↔
      key ∈ s.scopes.seen scope
      ∨ (step.key? = some key ∧ (s.scopes.stack c).head? = some scope) := by
  rw [scopes_run, moves_eq_toList hflat, ← move?_eq_record_iff]
  cases step.move? with
  | none => simp
  | some move => simp [Scopes.mem_seen_next hlt]

/-- A call for a style element is answered by the innermost scope. -/
theorem run_of_tagCall?_eq {step : Step} {name css : String}
    (h : step.tagCall? = some (name, css)) (s : Session) :
    (step.run c s).1.1 = .markup (s.scopes.tag c name css).1 := by
  cases step with
  | tag source name' css' =>
    obtain ⟨rfl, rfl⟩ := Prod.mk.injEq .. |>.mp (Option.some.inj h)
    rfl
  | tagDocument name' document =>
    cases houtcome : (Component.compileDocument document).outcome with
    | error fault => simp [tagCall?, houtcome] at h
    | ok compiled =>
      simp only [tagCall?, houtcome] at h
      obtain ⟨rfl, rfl⟩ := Prod.mk.injEq .. |>.mp (Option.some.inj h)
      rw [run, Session.tagDocument_of_ok houtcome]
      rfl
  | _ => cases h

/-- A call for a style element without text leaves the scopes as they are. -/
theorem scopes_run_of_tagCall?_empty {step : Step} {name : String}
    (h : step.tagCall? = some (name, "")) (s : Session) : (step.run c s).2.scopes = s.scopes := by
  cases step with
  | tag source name' css' | tagDocument name' document =>
    rw [scopes_run, moves_eq_toList rfl]
    simp [move?, key?, h]
  | _ => cases h

end Step

/-! ## Runs of several contexts -/

namespace Session

/-- A run of one context. -/
theorem run_map (s : Session) (c : Context) (steps : List Step) :
    s.run (steps.map fun step => (c, step)) = Step.runAll c s steps := by
  induction steps generalizing s with
  | nil => rfl
  | cons step rest ih => simp only [List.map_cons, run, ih, Step.runAll_cons]

/-- A run with its blocks written out. -/
def flat (steps : List (Context × Step)) : List (Context × Step) :=
  steps.flatMap fun (c, step) => (Step.flat [step]).map fun p => (c, p)

theorem spell_of_mem_flat {steps : List (Context × Step)} {entry : Context × Step}
    (h : entry ∈ flat steps) : Step.spell [.push] [.pop] entry.2 = [entry.2] := by
  obtain ⟨⟨c, step⟩, -, h⟩ := List.mem_flatMap.mp h
  obtain ⟨p, hp, rfl⟩ := List.mem_map.mp h
  exact Step.spell_of_mem_flat hp

/-- A run does what it does with its blocks written out. -/
theorem run_flat (s : Session) (steps : List (Context × Step)) :
    (s.run (flat steps)).2 = (s.run steps).2
    ∧ (s.run (flat steps)).1.map Prod.fst = Answer.flatAll (s.run steps).1 := by
  induction steps generalizing s with
  | nil => exact ⟨rfl, rfl⟩
  | cons first rest ih =>
    obtain ⟨c, step⟩ := first
    obtain ⟨hsession, hanswers⟩ := Step.runAll_flat c [step] s
    obtain ⟨hsession', hanswers'⟩ := ih (step.run c s).2
    rw [flat, List.flatMap_cons, ← flat, run_append, run_map, hsession]
    refine ⟨hsession', ?_⟩
    rw [List.map_append, hanswers]
    show _ ++ (((step.run c s).2.run (flat rest)).1.map Prod.fst) = _
    rw [hanswers']
    simp [Step.runAll, run, Answer.flatAll]

theorem opened_le_run (s : Session) (steps : List (Context × Step)) :
    s.scopes.opened ≤ (s.run steps).2.scopes.opened := by
  induction steps generalizing s with
  | nil => exact Nat.le_refl _
  | cons first rest ih =>
    obtain ⟨c, step⟩ := first
    refine Nat.le_trans ?_ (ih (step.run c s).2)
    rw [Step.scopes_run]
    exact Scopes.opened_le_after ..

/-! ## One scope -/

/-- Step `i` of a run is this one, taken while `scope` is the innermost scope of its context. -/
def TakenIn (s : Session) (steps : List (Context × Step)) (scope i : Nat) (step : Step) : Prop :=
  ∃ c, steps[i]? = some (c, step)
    ∧ ((s.run (steps.take i)).2.scopes.stack c).head? = some scope

theorem takenIn_map_iff {s : Session} {c : Context} {steps : List Step} {scope i : Nat}
    {step : Step} :
    TakenIn s (steps.map fun step => (c, step)) scope i step ↔
      steps[i]? = some step
      ∧ ((Step.runAll c s (steps.take i)).2.scopes.stack c).head? = some scope := by
  simp only [TakenIn, ← List.map_take, run_map, List.getElem?_map, Option.map_eq_some_iff]
  constructor
  · rintro ⟨d, ⟨p, hstep, heq⟩, hhead⟩
    obtain ⟨rfl, rfl⟩ := Prod.mk.injEq .. |>.mp heq
    exact ⟨hstep, hhead⟩
  · rintro ⟨hstep, hhead⟩
    exact ⟨c, ⟨step, hstep, rfl⟩, hhead⟩

variable {s : Session} {steps : List (Context × Step)} {scope i : Nat} {key name css : String}

/-- What a scope has seen is what it was asked while it was the innermost one of whoever asked. -/
theorem mem_seen_run (hflat : ∀ entry ∈ steps, Step.spell [.push] [.pop] entry.2 = [entry.2])
    (hlt : scope < s.scopes.opened) (n : Nat) :
    key ∈ (s.run (steps.take n)).2.scopes.seen scope ↔
      key ∈ s.scopes.seen scope
      ∨ ∃ i < n, ∃ step, TakenIn s steps scope i step ∧ step.key? = some key := by
  induction n with
  | zero => simp [run]
  | succ n ih =>
    simp only [Nat.lt_succ_iff_lt_or_eq, or_and_right, exists_or, exists_eq_left]
    rw [← or_assoc, ← ih, List.take_add_one]
    cases hstep : steps[n]? with
    | none => simp [TakenIn, hstep]
    | some entry =>
      obtain ⟨c, step⟩ := entry
      have hnow : scope < (s.run (steps.take n)).2.scopes.opened :=
        Nat.lt_of_lt_of_le hlt (opened_le_run s _)
      have hplain := hflat _ (List.mem_of_getElem? hstep)
      rw [Option.toList_some, run_append]
      refine (Step.mem_seen_run hplain hnow).trans (or_congr_right ?_)
      simp [TakenIn, hstep, and_comm]

/-- Step `i` of a run calls for the style element of this component and text, in this scope. -/
def Calls (s : Session) (steps : List (Context × Step)) (scope i : Nat)
    (name css : String) : Prop :=
  ∃ step, TakenIn s steps scope i step ∧ step.tagCall? = some (name, css)

/-- A step before step `i` calls in this scope for the same component and a text with the same
checksum. -/
def CalledBefore (s : Session) (steps : List (Context × Step)) (scope i : Nat)
    (name css : String) : Prop :=
  ∃ j < i, ∃ css', Calls s steps scope j name css' ∧ css' ≠ ""
    ∧ Checksum.mixNat (Text.units css') = Checksum.mixNat (Text.units css)

theorem mem_seen_styleKey_iff
    (hflat : ∀ entry ∈ steps, Step.spell [.push] [.pop] entry.2 = [entry.2])
    (hopened : scope < s.scopes.opened) (hnew : s.scopes.seen scope = [])
    (hdirect : ∀ j < i, ¬ TakenIn s steps scope j (.record (Scopes.styleKey name css))) :
    Scopes.styleKey name css ∈ (s.run (steps.take i)).2.scopes.seen scope ↔
      CalledBefore s steps scope i name css := by
  rw [mem_seen_run hflat hopened, hnew, or_iff_right List.not_mem_nil, CalledBefore]
  refine exists_congr fun j => and_congr_right fun hj => ?_
  constructor
  -- The key is not asked for by name, so it tells the component and the checksum.
  · rintro ⟨step, htaken, hkey⟩
    rcases (Step.key?_eq_some_iff step).mp hkey with rfl | ⟨name', css', hcall, hcss, hsame⟩
    · exact absurd htaken (hdirect j hj)
    · obtain ⟨rfl, hmix⟩ := Scopes.styleKey_inj.mp hsame
      exact ⟨css', ⟨step, htaken, hcall⟩, hcss, hmix⟩
  · rintro ⟨css', ⟨step, htaken, hcall⟩, hcss, hmix⟩
    have hsame : Scopes.styleKey name css' = Scopes.styleKey name css :=
      Scopes.styleKey_inj.mpr ⟨rfl, hmix⟩
    exact ⟨step, htaken,
      (Step.key?_eq_some_iff step).mpr (.inr ⟨name, css', hcall, hcss, hsame⟩)⟩

theorem Calls.getElem?_run (h : Calls s steps scope i name css) :
    ∃ c t rest, (s.run (steps.take i)).2 = t ∧ t.scopes.stack c = scope :: rest
      ∧ ((s.run steps).1.map Prod.fst)[i]? = some (.markup (t.scopes.tag c name css).1) := by
  obtain ⟨step, ⟨c, hstep, hhead⟩, hcall⟩ := h
  obtain ⟨rest, hstack⟩ := List.head?_eq_some_iff.mp hhead
  refine ⟨c, _, rest, rfl, hstack, ?_⟩
  rw [List.getElem?_map, Session.getElem?_run hstep, Option.map_some,
    Step.run_of_tagCall?_eq hcall]

theorem Calls.element_eq_empty_iff (h : Calls s steps scope i name css)
    (hflat : ∀ entry ∈ steps, Step.spell [.push] [.pop] entry.2 = [entry.2])
    (hopened : scope < s.scopes.opened) (hnew : s.scopes.seen scope = [])
    (hdirect : ∀ j < i, ¬ TakenIn s steps scope j (.record (Scopes.styleKey name css))) :
    ∃ element, ((s.run steps).1.map Prod.fst)[i]? = some (.markup element)
      ∧ (element = "" ↔ css = "" ∨ CalledBefore s steps scope i name css)
      ∧ (element ≠ "" → element = "<style>" ++ css ++ "</style>") := by
  obtain ⟨c, t, rest, rfl, hstack, hanswer⟩ := h.getElem?_run
  rw [Scopes.tag_fst_eq hstack] at hanswer
  refine ⟨_, hanswer, ?_, ?_⟩
  · rw [← mem_seen_styleKey_iff hflat hopened hnew hdirect]
    split
    · rename_i hempty
      exact iff_of_true rfl hempty
    · rename_i hfull
      exact iff_of_false (Scopes.element_ne_empty css) hfull
  · intro hne
    split
    · rename_i hempty
      exact absurd (if_pos hempty) hne
    · rfl

/-- **A style is withheld only for the same component and checksum.** A key stands for one
component and one checksum of a text, whatever the names look like. Take any scope, from where it
is opened on, and any call for a style element that is made in it, by whatever context, with the
blocks of the run written out. Unless the key of the style is recorded by name, the call comes
away empty exactly if its text is empty or an earlier call in the scope was for the same component
and a text, not empty, with the same checksum; else it gets the element. And a call without text
leaves all scopes as they are. -/
theorem element_withheld_iff :
    (∀ name name' css css' : String, Scopes.styleKey name css = Scopes.styleKey name' css' ↔
      name = name' ∧ Checksum.mixNat (Text.units css) = Checksum.mixNat (Text.units css'))
    ∧ (∀ (s : Session) (c : Context) (steps : List (Context × Step)) (i : Nat)
        (name css : String),
      Calls (s.push c) (flat steps) s.scopes.opened i name css →
      (∀ j < i, ¬ TakenIn (s.push c) (flat steps) s.scopes.opened j
        (.record (Scopes.styleKey name css))) →
      ∃ element, (Answer.flatAll ((s.push c).run steps).1)[i]? = some (.markup element)
        ∧ (element = "" ↔
          css = "" ∨ CalledBefore (s.push c) (flat steps) s.scopes.opened i name css)
        ∧ (element ≠ "" → element = "<style>" ++ css ++ "</style>"))
    ∧ ∀ (s : Session) (c : Context) (step : Step) (name : String),
      step.tagCall? = some (name, "") → (step.run c s).2.scopes = s.scopes := by
  refine ⟨fun _ _ _ _ => Scopes.styleKey_inj, ?_, fun s _ _ _ h =>
    Step.scopes_run_of_tagCall?_empty h s⟩
  intro s c steps i name css hcall hdirect
  have hnew : (s.push c).scopes.seen s.scopes.opened = [] := by simp [Session.push, Session.note]
  rw [← (run_flat (s.push c) steps).2]
  exact hcall.element_eq_empty_iff (fun _ => spell_of_mem_flat) (Nat.lt_succ_self _) hnew hdirect

/-- A task shares the scope of its creator: in a scope of its own it gets the element again, in
the shared one it does not. -/
def sharing : List (Context × Step) :=
  [("main", .tag .call "card:x" "p"), ("main", .task "worker"),
   ("worker", .bracket [.tag .call "card:x" "p"] false), ("worker", .tag .template "card:x" "p")]

theorem element_withheld_iff_sharing :
    Calls (Session.push {} "main") (flat sharing) 0 0 "card:x" "p"
    ∧ Calls (Session.push {} "main") (flat sharing) 0 5 "card:x" "p"
    ∧ (∀ j, ¬ TakenIn (Session.push {} "main") (flat sharing) 0 j
        (.record (Scopes.styleKey "card:x" "p")))
    ∧ (Answer.flatAll ((Session.push {} "main").run sharing).1)[0]? =
        some (.markup "<style>p</style>")
    ∧ (Answer.flatAll ((Session.push {} "main").run sharing).1)[5]? = some (.markup "")
    ∧ (Step.tag .call "card" "").tagCall? = some ("card", "")
    ∧ ((Step.tag .call "card" "").run "main" {}).2.scopes = ({} : Session).scopes := by
  have hfirst : Calls (Session.push {} "main") (flat sharing) 0 0 "card:x" "p" :=
    ⟨_, ⟨"main", rfl, by decide +kernel⟩, rfl⟩
  have hlast : Calls (Session.push {} "main") (flat sharing) 0 5 "card:x" "p" :=
    ⟨_, ⟨"worker", rfl, by decide +kernel⟩, rfl⟩
  have hdirect : ∀ j, ¬ TakenIn (Session.push {} "main") (flat sharing) 0 j
      (.record (Scopes.styleKey "card:x" "p")) := by
    rintro j ⟨c, hget, -⟩
    have hmem := List.mem_of_getElem? hget
    simp [sharing, flat, Step.flat, Step.spellAll, Step.spell] at hmem
  obtain ⟨-, hcalls, hblank⟩ := element_withheld_iff
  obtain ⟨element, hanswer, hempty, hfull⟩ :=
    hcalls {} "main" sharing 0 "card:x" "p" hfirst fun j _ => hdirect j
  obtain ⟨element', hanswer', hempty', -⟩ :=
    hcalls {} "main" sharing 5 "card:x" "p" hlast fun j _ => hdirect j
  have hnone : element ≠ "" := by
    intro heq
    rcases hempty.mp heq with hcss | ⟨j, hj, -⟩
    · exact absurd hcss (by decide)
    · exact absurd hj (Nat.not_lt_zero j)
  have hearlier : element' = "" := hempty'.mpr (.inr ⟨0, by decide, "p", hfirst, by decide, rfl⟩)
  refine ⟨hfirst, hlast, hdirect, ?_, ?_, rfl, hblank {} "main" _ "card" rfl⟩
  · rw [hanswer, hfull hnone]
    rfl
  · rw [hanswer', hearlier]

end Session

end Cascade
