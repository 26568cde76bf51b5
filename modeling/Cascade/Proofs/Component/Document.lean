import Cascade.Proofs.Sheet.Flattening
import Cascade.Proofs.Sheet.StyleByStyle

/-!
# Documents that compile

`Value.IsComponent` says in terms of a JSON document alone that it describes a component: what its
members `styles`, `container` and `layer` must be, and that every style tree is well formed. The
document is read by checks in a fixed order and then compiled; `exists_compileDocument_ok_iff`
says that nothing but those conditions decides whether all of it succeeds.

Whatever is noticed on the way is for the log alone (`level_of_mem_compileDocument`).
-/

namespace Cascade

/-! ## What a document must be -/

/-- An object that describes a component. -/
structure Members.IsComponent (document : Members) : Prop where
  styles : ∃ styles : Members, document.get? "styles" = some (.object styles)
    ∧ ∀ entry ∈ styles, ∃ style : Members, entry.2 = .object style ∧ style.WellFormed
  container : ∀ found, document.get? "container" = some found →
    found = .null ∨ ∃ container : Members, found = .object container
      ∧ ∀ type, container.get? "type" = some type →
        type = .null ∨ ∃ name ∈ containerTypes, type = .str name
  layer : ∀ found, document.get? "layer" = some found → ∃ layer : Layer, found = .str layer.name

/-- A document that describes a component. -/
def Value.IsComponent (document : Value) : Prop :=
  ∃ members : Members, document = .object members ∧ members.IsComponent

/-! ## The checks of the members -/

namespace Layer

theorem ofValue_ok_iff {v : Value} {layer : Layer} :
    ofValue v = .ok layer ↔ v = .str layer.name := by
  constructor
  · intro h
    cases v with
    | str s =>
      simp only [ofValue] at h
      cases hname : ofName? s with
      | none => rw [hname] at h; cases h
      | some found =>
        rw [hname] at h
        obtain rfl := Except.ok.inj h
        rw [name_of_ofName? hname]
    | _ => cases h
  · rintro rfl
    simp only [ofValue, ofName?_name]

/-- Without a layer, that of components is meant. -/
theorem exists_ofValue_ok_iff {found : Option Value} :
    (∃ layer, ofValue (found.getD (.str components.name)) = .ok layer) ↔
      ∀ v, found = some v → ∃ layer : Layer, v = .str layer.name := by
  simp only [ofValue_ok_iff]
  cases found with
  | none => exact ⟨fun _ => nofun, fun _ => ⟨components, rfl⟩⟩
  | some v => simp only [Option.getD_some, Option.some.injEq, forall_eq']

end Layer

namespace Container

theorem isType_iff {type : Value} :
    isType type = true ↔ type = .null ∨ ∃ name ∈ containerTypes, type = .str name := by
  cases type <;> simp [isType]

/-- The container that is given by the member for it. -/
inductive Given : Option Value → Option Container → Prop
  | missing : Given none none
  | null : Given (some .null) none
  | object (members : Members) : Given (some (.object members))
      (some ⟨(members.get? "name").getD .null, (members.get? "type").getD .null⟩)

theorem Given.unique {found : Option Value} {container other : Option Container}
    (h : Given found container) (hother : Given found other) : container = other := by
  cases h <;> cases hother <;> rfl

theorem ofDocument_ok_iff {found : Option Value} {container : Option Container} :
    ofDocument (found.getD .null) = .ok container ↔
      Given found container
        ∧ ∀ c ∈ container, c.type = .null ∨ ∃ name ∈ containerTypes, c.type = .str name := by
  simp only [← isType_iff]
  constructor
  · intro h
    cases found with
    | none =>
      obtain rfl := Except.ok.inj h
      exact ⟨.missing, nofun⟩
    | some v =>
      cases v with
      | null =>
        obtain rfl := Except.ok.inj h
        exact ⟨.null, nofun⟩
      | object members =>
        simp only [Option.getD_some, ofDocument] at h
        split at h
        · rename_i htype
          obtain rfl := Except.ok.inj h
          exact ⟨.object members, by simpa using htype⟩
        · cases h
      | _ => cases h
  · rintro ⟨hgiven, htype⟩
    cases hgiven with
    | missing => rfl
    | null => rfl
    | object members =>
      simp only [Option.getD_some, ofDocument, htype _ rfl, if_true]

theorem exists_ofDocument_ok_iff {found : Option Value} :
    (∃ container, ofDocument (found.getD .null) = .ok container) ↔
      ∀ v, found = some v → v = .null ∨ ∃ container : Members, v = .object container
        ∧ ∀ type, container.get? "type" = some type →
          type = .null ∨ ∃ name ∈ containerTypes, type = .str name := by
  simp only [ofDocument_ok_iff]
  constructor
  · rintro ⟨container, hgiven, htype⟩ v rfl
    cases hgiven with
    | null => exact .inl rfl
    | object members =>
      refine .inr ⟨members, rfl, fun type hfound => ?_⟩
      have hgiven := htype _ rfl
      rwa [hfound, Option.getD_some] at hgiven
  · intro h
    cases found with
    | none => exact ⟨none, .missing, nofun⟩
    | some v =>
      obtain rfl | ⟨members, rfl, htype⟩ := h v rfl
      · exact ⟨none, .null, nofun⟩
      · refine ⟨_, .object members, fun c hc => ?_⟩
        obtain rfl := Option.some.inj hc
        cases hfound : Members.get? members "type" with
        | none => exact .inl rfl
        | some type => exact htype type hfound

end Container

namespace Component

theorem firstNonObject?_eq_none_iff {styles : Members} :
    firstNonObject? styles = none ↔
      ∀ entry ∈ styles, ∃ style : Members, entry.2 = .object style := by
  induction styles with
  | nil => simp [firstNonObject?]
  | cons entry rest ih =>
    obtain ⟨key, value⟩ := entry
    rw [firstNonObject?, List.forall_mem_cons, ← ih]
    cases value <;> simp [Value.members?]

theorem stylesOfDocument_ok_iff {document styles : Members} :
    stylesOfDocument document = .ok styles ↔
      document.get? "styles" = some (.object styles)
        ∧ ∀ entry ∈ styles, ∃ style : Members, entry.2 = .object style := by
  rw [stylesOfDocument, ← firstNonObject?_eq_none_iff]
  split
  · rename_i found hfound
    cases hfirst : firstNonObject? found <;> grind
  · rename_i hnone
    simp only [reduceCtorEq, false_iff, not_and]
    exact fun hstyles => absurd hstyles (hnone styles)

theorem ofDocument_ok_iff {document : Members} {c : Component} :
    ofDocument (.object document) = .ok c ↔
      stylesOfDocument document = .ok c.styles
        ∧ Container.ofDocument ((document.get? "container").getD .null) = .ok c.container
        ∧ Layer.ofValue ((document.get? "layer").getD (.str Layer.components.name)) =
          .ok c.layer := by
  obtain ⟨styles, layer, container⟩ := c
  simp only [ofDocument, bind, Except.bind, pure, Except.pure]
  cases stylesOfDocument document with
  | error fault => simp
  | ok =>
    cases Container.ofDocument ((document.get? "container").getD .null) with
    | error fault => simp
    | ok =>
      cases Layer.ofValue ((document.get? "layer").getD (.str Layer.components.name)) with
      | error fault => simp
      | ok => simp only [Except.ok.injEq, Component.mk.injEq]; tauto

/-! ## Compiling -/

/-- A component compiles exactly if all of its styles are well-formed objects. -/
theorem exists_compile_ok_iff_wellFormed {c : Component} {settings : Settings} :
    (∃ compiled, (c.compile settings).outcome = .ok compiled) ↔ c.WellFormed := by
  constructor
  · intro hcompiles entry hentry
    obtain ⟨i, hi⟩ := List.getElem?_of_mem hentry
    obtain ⟨rules, style, hstyle, hok⟩ :=
      exists_compile_ok_iff.mp hcompiles (entry, i) (List.mk_mem_zipIdx_iff_getElem?.mpr hi)
    exact ⟨style, hstyle, Style.wellFormed_of_compile_outcome hok⟩
  · intro h
    exact ⟨_, compile_outcome_of_wellFormed h settings⟩

theorem compileDocument_ok_iff {document : Value} {settings : Settings} {compiled : Compiled} :
    (compileDocument document settings).outcome = .ok compiled ↔
      ∃ c, ofDocument document = .ok c ∧ (c.compile settings).outcome = .ok compiled :=
  Report.outcome_bind_ofExcept_ok_iff

/-- A document compiles exactly if it describes a component. -/
theorem exists_compileDocument_ok_iff {document : Value} {settings : Settings} :
    (∃ compiled, (compileDocument document settings).outcome = .ok compiled) ↔
      document.IsComponent := by
  simp only [compileDocument_ok_iff]
  constructor
  · rintro ⟨compiled, c, hread, hcompiled⟩
    have hstyles := exists_compile_ok_iff_wellFormed.mp ⟨compiled, hcompiled⟩
    cases document with
    | object members =>
      obtain ⟨hfound, hcontainer, hlayer⟩ := ofDocument_ok_iff.mp hread
      exact ⟨members, rfl,
        { styles := ⟨c.styles, (stylesOfDocument_ok_iff.mp hfound).1, hstyles⟩
          container := Container.exists_ofDocument_ok_iff.mp ⟨_, hcontainer⟩
          layer := Layer.exists_ofValue_ok_iff.mp ⟨_, hlayer⟩ }⟩
    | _ => cases hread
  · rintro ⟨members, rfl, hmembers⟩
    obtain ⟨styles, hfound, hstyles⟩ := hmembers.styles
    obtain ⟨container, hcontainer⟩ := Container.exists_ofDocument_ok_iff.mpr hmembers.container
    obtain ⟨layer, hlayer⟩ := Layer.exists_ofValue_ok_iff.mpr hmembers.layer
    have hobjects : stylesOfDocument members = .ok styles :=
      stylesOfDocument_ok_iff.mpr ⟨hfound, fun entry hentry =>
        (hstyles entry hentry).imp fun _ h => h.1⟩
    let c : Component := { styles, layer, container }
    have hwellFormed : c.WellFormed := hstyles
    exact ⟨_, c, ofDocument_ok_iff.mpr ⟨hobjects, hcontainer, hlayer⟩,
      compile_outcome_of_wellFormed hwellFormed settings⟩

end Component

/-! ## What is noticed -/

theorem Finding.notice_mem_of_mem {findings : List Finding} {n : Notice}
    (h : n ∈ noticesBeforeFault findings) : notice n ∈ findings := by
  induction findings with
  | nil => cases h
  | cons finding rest ih =>
    cases finding with
    | fault f => cases h
    | notice m =>
      rcases List.mem_cons.mp h with rfl | h
      · exact List.mem_cons_self
      · exact List.mem_cons_of_mem _ (ih h)

/-- All that a style object makes noticed are conditions that are taken for widths. -/
theorem Block.eq_of_notice_mem_findings {style : Members} {path : List String} {n : Notice}
    (h : .notice n ∈ (ofMembers style).findings path) :
    ∃ condition, n = .unknownBreakpoint condition := by
  induction style using Members.treeInduction generalizing path with
  | step style ih =>
    rw [findings_ofMembers, List.mem_append, List.mem_flatMap] at h
    rcases h with h | ⟨⟨branch, inner⟩, hchild, h⟩
    · obtain ⟨cause, -, hcause⟩ := List.mem_map.mp h
      cases hcause
    · rcases List.mem_append.mp h with h | h
      · exact ih _ hchild h
      · cases branch with
        | nested key => cases h
        | under rule condition =>
          simp only [Branch.notices, conditionNotices] at h
          split at h
          · obtain ⟨found, hfound, heq⟩ := List.mem_map.mp h
            obtain rfl := Finding.notice.inj heq
            exact ⟨condition, Query.mem_notices hfound⟩
          · cases h

namespace Component

theorem level_of_mem_compile {c : Component} {settings : Settings} {n : Notice}
    (h : n ∈ (c.compile settings).notices) : n.level = "DEBUG" := by
  have hfindings : ∀ n ∈ Finding.noticesBeforeFault c.findings, n.level = "DEBUG" := by
    intro n hn
    obtain ⟨⟨key, style⟩, -, hstyle⟩ := List.mem_flatMap.mp (Finding.notice_mem_of_mem hn)
    cases style with
    | object members =>
      obtain ⟨condition, rfl⟩ := Block.eq_of_notice_mem_findings hstyle
      rfl
    | _ => simp [styleFindings] at hstyle
  simp only [compile, Report.andNote] at h
  split at h
  · exact hfindings n h
  · rcases List.mem_append.mp h with h | h
    · exact hfindings n h
    · obtain rfl := List.mem_singleton.mp h
      rfl

/-- Compiling a document warns of nothing. -/
theorem level_of_mem_compileDocument {document : Value} {settings : Settings} {n : Notice}
    (h : n ∈ (compileDocument document settings).notices) : n.level = "DEBUG" := by
  simp only [compileDocument, Report.ofExcept, Report.bind] at h
  split at h
  · cases h
  · exact level_of_mem_compile (List.mem_append.mp h |>.resolve_left List.not_mem_nil)

end Component

end Cascade
