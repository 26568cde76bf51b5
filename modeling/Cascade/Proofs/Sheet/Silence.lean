import Cascade.Proofs.Sheet.Flattening
import Cascade.Proofs.Sheet.StyleByStyle

/-!
# Components with nothing to say

Whether a sheet is written is decided late, by looking for anything but blanks in the joined
rules. `Component.Silent` says what this comes to for the component itself: no container with a
name or a type, and no property in any style tree. What carries the result is that a rule shows a
brace whatever goes into it, so that joined rules look blank only if there are none, whatever
stands between them.
-/

namespace Cascade

/-- The sheet is empty exactly if there are no rules for it. -/
theorem Layer.wrap_eq_empty_iff (layer : Layer) (separator : String) (rules : List Rule) :
    layer.wrap (separator.intercalate (rules.map Rule.text)) = "" ↔ rules = [] := by
  refine ⟨fun hempty => ?_, fun hnil => by rw [hnil]; rfl⟩
  by_contra hne
  rw [wrap_of_ne_nil layer hne, ← String.toList_inj] at hempty
  simp at hempty

/-! ## What a component says -/

namespace Component

variable {c : Component} {settings : Settings} {compiled : Compiled}

/-- No container has a name or a type, and no style tree has a property that is not null. -/
structure Silent (c : Component) : Prop where
  container : ∀ container ∈ c.container,
    container.name.isTruthy = false ∧ container.type.isTruthy = false
  styles : ∀ entry ∈ c.styles, ∀ style : Members, entry.2 = .object style → style.Silent

theorem containerRules_eq_nil_iff :
    c.containerRules settings = [] ↔
      ∀ container ∈ c.container,
        container.name.isTruthy = false ∧ container.type.isTruthy = false := by
  rw [containerRules]
  cases c.container with
  | none => simp
  | some container =>
    simp only [Rule.ofDeclarations_eq_nil_iff, Container.declarations, Option.mem_some_iff,
      forall_eq']
    cases container.name.isTruthy <;> cases container.type.isTruthy <;> simp

/-- One after the other, the rules of styles are none exactly if each style tree is silent. -/
theorem flatten_eq_nil_iff {entries : List ((String × Value) × Nat)} {rules : List (List Rule)}
    (h : List.Forall₂ CompilesTo entries rules) :
    rules.flatten = [] ↔
      ∀ entry ∈ entries, ∀ style : Members, entry.1.2 = .object style → style.Silent := by
  induction h with
  | nil => simp
  | @cons entry here entries rules hentry _ ih =>
    obtain ⟨style, hstyle, hok⟩ := hentry
    have hwellFormed := Style.wellFormed_of_compile_outcome hok
    rw [Style.compile_outcome_of_wellFormed hwellFormed] at hok
    obtain rfl := Except.ok.inj hok
    rw [List.flatten_cons, List.append_eq_nil_iff, List.forall_mem_cons, ih,
      Block.rules_eq_nil_iff_silent hwellFormed, hstyle]
    simp only [Value.object.injEq, forall_eq']

theorem rules_eq_nil_iff_silent {rules : List (List Rule)}
    (h : List.Forall₂ CompilesTo c.styles.zipIdx rules) :
    c.containerRules settings ++ rules.flatten = [] ↔ c.Silent := by
  rw [List.append_eq_nil_iff, containerRules_eq_nil_iff, flatten_eq_nil_iff h,
    forall_fst_mem_zipIdx_iff fun entry : String × Value =>
      ∀ style : Members, entry.2 = .object style → style.Silent]
  exact ⟨fun ⟨hcontainer, hstyles⟩ => ⟨hcontainer, hstyles⟩, fun hsilent =>
    ⟨hsilent.container, hsilent.styles⟩⟩

/-- **A sheet is empty exactly if there is nothing to say.** The text of a compiled component is
empty exactly if its container, if it has one, has neither a name nor a type, and its style trees
have no property that is not null, at any depth. Otherwise it is the block of the component's
layer, with all rules of container and styles in it, one at least, whatever the separator is. -/
theorem css_eq_empty_iff (h : (c.compile settings).outcome = .ok compiled) :
    (compiled.css = "" ↔ c.Silent)
    ∧ (¬ c.Silent → ∃ rules, List.Forall₂ CompilesTo c.styles.zipIdx rules
        ∧ c.containerRules settings ++ rules.flatten ≠ []
        ∧ compiled.css =
          "@layer " ++ c.layer.name ++ " \x7b " ++
            settings.ruleSeparator.intercalate
              ((c.containerRules settings ++ rules.flatten).map Rule.text) ++ " \x7d") := by
  obtain ⟨rules, hrules, rfl⟩ := compile_ok_iff.mp h
  have hsilent : c.containerRules settings ++ rules.flatten = [] ↔ c.Silent :=
    rules_eq_nil_iff_silent hrules
  refine ⟨?_, fun hspeaks => ?_⟩
  · rw [css_assembled, Layer.wrap_eq_empty_iff, hsilent]
  · have hne := hsilent.not.mpr hspeaks
    refine ⟨rules, hrules, hne, ?_⟩
    rw [css_assembled, c.layer.wrap_of_ne_nil hne settings.ruleSeparator]

/-- A component with a container and with entries, but nothing to declare. -/
def hollow : Component where
  styles :=
    [("card", .object [("color", .null), ("&:hover", .object [("@media", .object
      [("mobile", .object [("color", .null)])])])]),
     ("badge", .object [])]
  container := some ⟨.str "", .null⟩

/-- A separator that is not blank is not seen, as there is nothing to separate; and the name of
the container alone is enough for a sheet. -/
theorem css_eq_empty_iff_hollow :
    (∃ compiled, (hollow.compile { ruleSeparator := "/**/" }).outcome = .ok compiled
      ∧ compiled.css = "" ∧ hollow.Silent)
    ∧ ∃ compiled rules,
      ({ hollow with container := some ⟨.str "card", .null⟩ }.compile {}).outcome = .ok compiled
      ∧ rules ≠ []
      ∧ compiled.css = "@layer components \x7b " ++ "\n".intercalate rules ++ " \x7d" := by
  constructor
  · have hok : (hollow.compile { ruleSeparator := "/**/" }).outcome = .ok _ := rfl
    exact ⟨_, hok, by decide +kernel, (css_eq_empty_iff hok).1.mp (by decide +kernel)⟩
  · have hok : ({ hollow with container := some ⟨.str "card", .null⟩ }.compile {}).outcome =
        .ok _ := rfl
    obtain ⟨hempty, hblock⟩ := css_eq_empty_iff hok
    obtain ⟨rules, -, hne, hcss⟩ := hblock (hempty.not.mp (by decide +kernel))
    exact ⟨_, _, hok, List.map_eq_nil_iff.not.mpr hne, hcss⟩

end Component

end Cascade
