import Cascade.Component.Compile
import Cascade.Proofs.Sheet.Flattening
import Cascade.Proofs.Style.Blame
import Mathlib.Data.List.Forall2

/-!
# Style by style

A component is compiled as if each of its styles were compiled alone, for the class name that its
key and its place give. Compiling a style alone puts the class name first in the path of a fault,
compiling a component puts the key there, and this is all that differs (`faults_findings_key`).

`CompilesTo` and `RefusedFor` say what becomes of one style. `compile_ok_iff` and
`compile_error_iff` tell from them what becomes of the component, and `compile_style_by_style`
adds what follows for other bodies and for further styles. The one rule that is not a style's,
that of the container, is written out for it (`Container.ruleTexts`).
-/

namespace Cascade

/-- The name that a path begins with is all that depends on it. -/
theorem Block.faults_findings_key (key name : String) (style : Members) :
    Finding.faults ((ofMembers style).findings [key]) =
      (Finding.faults ((ofMembers style).findings [name])).map fun fault =>
        ⟨fault.cause, key :: fault.path.tail⟩ := by
  rw [faults_findings, faults_findings, List.map_flatMap]
  simp only [List.map_map, Function.comp_def, List.singleton_append, List.tail_cons]

/-! ## The container -/

namespace Container

/-- The text of a container's rule: what is given of name and type, for the class `selector`.
There is none if neither is given. -/
def ruleTexts (selector : String) (c : Container) : List String :=
  let given := c.parts.filter fun (_, value) => value.isTruthy
  if given.isEmpty then []
  else
    let declared := given.map fun (name, value) => name ++ ": " ++ value.text ++ ";"
    ["." ++ selector ++ " \x7b " ++ " ".intercalate declared ++ " \x7d"]

theorem map_text_ofDeclarations (selector : String) (c : Container) :
    (Rule.ofDeclarations ("." ++ selector) c.declarations).map Rule.text =
      c.ruleTexts selector := by
  rw [declarations_eq, ruleTexts]
  cases c.parts.filter fun (_, value) => value.isTruthy with
  | nil => rfl
  | cons part rest =>
    simp [Rule.ofDeclarations, Rule.text, declarationsText, Declaration.text, Function.comp_def]

end Container

namespace Component

/-! ## One style -/

/-- A style with its place compiles, for the class name that the two make, to these rules. -/
def CompilesTo (entry : (String × Value) × Nat) (rules : List Rule) : Prop :=
  ∃ members : Members, entry.1.2 = .object members
    ∧ (Style.compile (Name.ofStyle entry.1.1 entry.2) members).outcome = .ok rules

/-- What a component is refused for on account of a style with its place. -/
inductive RefusedFor : (String × Value) × Nat → Fault → Prop
  | notObject {key : String} {style : Value} {i : Nat} (h : ∀ members, style ≠ .object members) :
      RefusedFor ((key, style), i) ⟨.styleNotObject key, ["styles"]⟩
  /-- The fault of the style alone, with the key in the place of the class name. -/
  | malformed {key : String} {members : Members} {i : Nat} {cause : Cause} {path : List String}
      (h : (Style.compile (Name.ofStyle key i) members).outcome =
        .error ⟨cause, Name.ofStyle key i :: path⟩) :
      RefusedFor ((key, .object members), i) ⟨cause, key :: path⟩

theorem compile_ok_iff_faults {name : String} {style : Members} {rules : List Rule} :
    (Style.compile name style).outcome = .ok rules ↔
      Finding.faults ((Block.ofMembers style).findings [name]) = []
        ∧ (Block.ofMembers style).rules ("." ++ name) = rules := by
  simp only [Style.compile, Style.compileFor, Report.ofFindings, Finding.firstFault?_eq_head?]
  cases Finding.faults ((Block.ofMembers style).findings [name]) <;> simp

theorem compilesTo_iff {entry : String × Value} {i : Nat} {rules : List Rule} :
    CompilesTo (entry, i) rules ↔
      Finding.faults (styleFindings entry.1 entry.2) = []
        ∧ styleRules (Name.ofStyle entry.1 i) entry.2 = rules := by
  obtain ⟨key, style⟩ := entry
  constructor
  · rintro ⟨members, hstyle, hok⟩
    obtain rfl : style = .object members := hstyle
    obtain ⟨hfaults, hrules⟩ := compile_ok_iff_faults.mp hok
    refine ⟨?_, hrules⟩
    rw [styleFindings, Block.faults_findings_key key (Name.ofStyle key i), hfaults, List.map_nil]
  · rintro ⟨hfaults, hrules⟩
    cases style with
    | object members =>
      refine ⟨members, rfl, compile_ok_iff_faults.mpr ⟨?_, hrules⟩⟩
      rwa [styleFindings, Block.faults_findings_key key (Name.ofStyle key i),
        List.map_eq_nil_iff] at hfaults
    | _ => cases hfaults

theorem exists_compilesTo_iff {entry : String × Value} {i : Nat} :
    (∃ rules, CompilesTo (entry, i) rules) ↔
      Finding.faults (styleFindings entry.1 entry.2) = [] := by
  simp only [compilesTo_iff, exists_and_left, exists_eq', and_true]

theorem refusedFor_iff {entry : String × Value} {i : Nat} {fault : Fault} :
    RefusedFor (entry, i) fault ↔
      (Finding.faults (styleFindings entry.1 entry.2)).head? = some fault := by
  obtain ⟨key, style⟩ := entry
  constructor
  · intro h
    cases h with
    | notObject hobject =>
      cases style with
      | object members => exact absurd rfl (hobject members)
      | _ => rfl
    | malformed herror =>
      rw [Style.compile_outcome_error_iff_firstFault?, Finding.firstFault?_eq_head?] at herror
      rw [styleFindings, Block.faults_findings_key key (Name.ofStyle key i), List.head?_map,
        herror]
      rfl
  · intro h
    cases style with
    | object members =>
      rw [styleFindings, Block.faults_findings_key key (Name.ofStyle key i), List.head?_map,
        ← Finding.firstFault?_eq_head?, Option.map_eq_some_iff] at h
      obtain ⟨found, hfound, rfl⟩ := h
      have herror := Style.compile_outcome_error_iff_firstFault?.mpr hfound
      obtain ⟨path, entry, cause, -, rfl⟩ :=
        Style.compile_outcome_error_iff_firstMalformed.mp herror
      exact .malformed herror
    | _ =>
      obtain rfl := Option.some.inj h
      exact .notObject nofun

/-! ## All styles -/

/-- The class names that styles have by their keys and places. -/
def classNames (entries : List ((String × Value) × Nat)) : List (String × String) :=
  entries.map fun ((key, _), i) => (key, Name.ofStyle key i)

/-- What a component comes to if its styles come to these rules: the rule of the container, if
there is one, and behind it the rules of all styles, joined and put into the layer. -/
def assembled (c : Component) (settings : Settings) (rules : List (List Rule)) : Compiled where
  classes := classNames c.styles.zipIdx
  css := c.layer.wrap
    (settings.ruleSeparator.intercalate
      ((c.container.toList.flatMap (·.ruleTexts settings.containerSelector))
        ++ rules.flatten.map Rule.text))

variable {c : Component} {settings : Settings} {compiled : Compiled}

theorem map_text_containerRules (c : Component) (settings : Settings) :
    (c.containerRules settings).map Rule.text =
      c.container.toList.flatMap (·.ruleTexts settings.containerSelector) := by
  rw [containerRules_eq, List.map_flatMap]
  exact List.flatMap_congr fun container _ => container.map_text_ofDeclarations _

theorem css_assembled (c : Component) (settings : Settings) (rules : List (List Rule)) :
    (c.assembled settings rules).css =
      c.layer.wrap
        (settings.ruleSeparator.intercalate
          ((c.containerRules settings ++ rules.flatten).map Rule.text)) := by
  rw [assembled, List.map_append, map_text_containerRules]

theorem forall₂_compilesTo_iff {entries : List ((String × Value) × Nat)}
    {rules : List (List Rule)} :
    List.Forall₂ CompilesTo entries rules ↔
      (∀ entry ∈ entries, ∃ rules, CompilesTo entry rules)
        ∧ (entries.map fun ((key, style), i) =>
            styleRules (Name.ofStyle key i) style) = rules := by
  induction entries generalizing rules with
  | nil => simp [List.forall₂_nil_left_iff, eq_comm]
  | cons entry rest ih =>
    obtain ⟨⟨key, style⟩, i⟩ := entry
    rw [List.forall₂_cons_left_iff, List.forall_mem_cons, exists_compilesTo_iff, List.map_cons]
    constructor
    · rintro ⟨here, later, hhere, hlater, rfl⟩
      obtain ⟨hfaults, rfl⟩ := compilesTo_iff.mp hhere
      obtain ⟨hrest, rfl⟩ := ih.mp hlater
      exact ⟨⟨hfaults, hrest⟩, rfl⟩
    · rintro ⟨⟨hfaults, hrest⟩, rfl⟩
      exact ⟨_, _, compilesTo_iff.mpr ⟨hfaults, rfl⟩, ih.mpr ⟨hrest, rfl⟩, rfl⟩

theorem forall₂_append_left {entries more : List ((String × Value) × Nat)}
    {rules : List (List Rule)} (h : List.Forall₂ CompilesTo (entries ++ more) rules) :
    ∃ first second, List.Forall₂ CompilesTo entries first ∧ List.Forall₂ CompilesTo more second
      ∧ rules = first ++ second := by
  obtain ⟨hall, rfl⟩ := forall₂_compilesTo_iff.mp h
  obtain ⟨hentries, hmore⟩ := List.forall_mem_append.mp hall
  exact ⟨_, _, forall₂_compilesTo_iff.mpr ⟨hentries, rfl⟩,
    forall₂_compilesTo_iff.mpr ⟨hmore, rfl⟩, List.map_append⟩

theorem sheet_eq_assembled (c : Component) (settings : Settings) :
    c.sheet settings (c.rules settings) =
      c.assembled settings
        (c.styles.zipIdx.map fun ((key, style), i) => styleRules (Name.ofStyle key i) style) := by
  simp only [sheet, assembled, rules, classed, classNames, List.map_append, List.map_map,
    map_text_containerRules, List.flatMap_def, Function.comp_def]

theorem compile_outcome_eq (c : Component) (settings : Settings) :
    (c.compile settings).outcome =
      match (Finding.faults c.findings).head? with
      | some fault => .error fault
      | none => .ok (c.sheet settings (c.rules settings)) := by
  simp only [compile, Report.ofFindings, Report.andNote, Finding.firstFault?_eq_head?]
  cases (Finding.faults c.findings).head? <;> rfl

theorem faults_findings (c : Component) :
    Finding.faults c.findings =
      c.styles.flatMap fun (key, style) => Finding.faults (styleFindings key style) :=
  Finding.faults_flatMap c.styles _

/-- What does not depend on the place holds of entries with places as it holds of entries. -/
theorem forall_fst_mem_zipIdx_iff {α : Type} {entries : List α} {start : Nat} (p : α → Prop) :
    (∀ entry ∈ entries.zipIdx start, p entry.1) ↔ ∀ entry ∈ entries, p entry := by
  conv_rhs => rw [← List.zipIdx_map_fst start entries]
  exact List.forall_mem_map.symm

theorem forall_mem_zipIdx_iff {entries : Members} {start : Nat} :
    (∀ entry ∈ entries.zipIdx start, ∃ rules, CompilesTo entry rules) ↔
      ∀ entry ∈ entries, Finding.faults (styleFindings entry.1 entry.2) = [] := by
  refine Iff.trans (forall₂_congr fun _ _ => exists_compilesTo_iff) ?_
  exact forall_fst_mem_zipIdx_iff fun entry : String × Value =>
    Finding.faults (styleFindings entry.1 entry.2) = []

theorem faults_findings_eq_nil_iff :
    Finding.faults c.findings = [] ↔
      ∀ entry ∈ c.styles, Finding.faults (styleFindings entry.1 entry.2) = [] := by
  rw [faults_findings, List.flatMap_eq_nil_iff]

/-- A component compiles exactly to what its styles compile to one by one. -/
theorem compile_ok_iff :
    (c.compile settings).outcome = .ok compiled ↔
      ∃ rules, List.Forall₂ CompilesTo c.styles.zipIdx rules
        ∧ compiled = c.assembled settings rules := by
  simp only [forall₂_compilesTo_iff, forall_mem_zipIdx_iff, ← faults_findings_eq_nil_iff,
    and_assoc, exists_and_left, exists_eq_left', ← sheet_eq_assembled]
  rw [compile_outcome_eq]
  cases Finding.faults c.findings <;> simp [eq_comm]

/-- A component is refused for the first of its styles that does not compile alone. -/
theorem compile_error_iff {fault : Fault} :
    (c.compile settings).outcome = .error fault ↔
      ∃ before entry after, c.styles = before ++ entry :: after
        ∧ (∀ earlier ∈ before.zipIdx, ∃ rules, CompilesTo earlier rules)
        ∧ RefusedFor (entry, before.length) fault := by
  have hhead : (c.compile settings).outcome = .error fault ↔
      (Finding.faults c.findings).head? = some fault := by
    rw [compile_outcome_eq]
    cases (Finding.faults c.findings).head? <;> simp
  simp only [hhead, forall_mem_zipIdx_iff, refusedFor_iff]
  rw [faults_findings, List.head?_flatMap, List.findSome?_eq_some_iff]
  simp only [List.head?_eq_none_iff]
  constructor
  · rintro ⟨before, entry, after, hstyles, hentry, hbefore⟩
    exact ⟨before, entry, after, hstyles, hbefore, hentry⟩
  · rintro ⟨before, entry, after, hstyles, hbefore, hentry⟩
    exact ⟨before, entry, after, hstyles, hentry, hbefore⟩

theorem exists_compile_ok_iff :
    (∃ compiled, (c.compile settings).outcome = .ok compiled) ↔
      ∀ entry ∈ c.styles.zipIdx, ∃ rules, CompilesTo entry rules := by
  simp only [compile_ok_iff, forall₂_compilesTo_iff]
  constructor
  · rintro ⟨compiled, rules, ⟨h, -⟩, -⟩
    exact h
  · intro h
    exact ⟨_, _, ⟨h, rfl⟩, rfl⟩

/-! ## Other styles -/

/-- The style of the key has another body. -/
theorem compile_replace {before after : Members} {key : String} {old new : Members}
    (hstyles : c.styles = before ++ (key, .object old) :: after)
    (hold : (c.compile settings).outcome = .ok compiled) {newRules : List Rule}
    (hnew : (Style.compile (Name.ofStyle key before.length) new).outcome = .ok newRules) :
    ∃ rulesBefore oldRules rulesAfter,
      List.Forall₂ CompilesTo before.zipIdx rulesBefore
      ∧ (Style.compile (Name.ofStyle key before.length) old).outcome = .ok oldRules
      ∧ List.Forall₂ CompilesTo (after.zipIdx (before.length + 1)) rulesAfter
      ∧ compiled = c.assembled settings (rulesBefore ++ oldRules :: rulesAfter)
      ∧ ({ c with styles := before ++ (key, Value.object new) :: after }.compile
            settings).outcome =
          .ok ⟨compiled.classes,
            (c.assembled settings (rulesBefore ++ newRules :: rulesAfter)).css⟩ := by
  obtain ⟨rules, hrules, rfl⟩ := compile_ok_iff.mp hold
  have hsplit : ∀ body : Value, (before ++ (key, body) :: after).zipIdx =
      before.zipIdx ++ ((key, body), before.length) :: after.zipIdx (before.length + 1) := by
    intro body
    rw [List.zipIdx_append, List.zipIdx_cons, Nat.zero_add]
  rw [hstyles, hsplit] at hrules
  obtain ⟨rulesBefore, rest, hbefore, hrest, rfl⟩ := forall₂_append_left hrules
  obtain ⟨oldRules, rulesAfter, ⟨members, hmembers, hbody⟩, hafter, rfl⟩ :=
    List.forall₂_cons_left_iff.mp hrest
  obtain rfl := Value.object.inj hmembers
  refine ⟨rulesBefore, oldRules, rulesAfter, hbefore, hbody, hafter, rfl, ?_⟩
  rw [compile_ok_iff]
  refine ⟨rulesBefore ++ newRules :: rulesAfter, ?_, ?_⟩
  · rw [hsplit]
    exact List.rel_append hbefore (.cons ⟨new, rfl, hnew⟩ hafter)
  · simp [assembled, classNames, hstyles, hsplit]

/-- Further styles. -/
theorem compile_append {more : Members} {extra : List (List Rule)}
    (hok : (c.compile settings).outcome = .ok compiled)
    (hmore : List.Forall₂ CompilesTo (more.zipIdx c.styles.length) extra) :
    ∃ rules, List.Forall₂ CompilesTo c.styles.zipIdx rules
      ∧ compiled = c.assembled settings rules
      ∧ ({ c with styles := c.styles ++ more }.compile settings).outcome =
          .ok ⟨compiled.classes ++ classNames (more.zipIdx c.styles.length),
            (c.assembled settings (rules ++ extra)).css⟩ := by
  obtain ⟨rules, hrules, rfl⟩ := compile_ok_iff.mp hok
  refine ⟨rules, hrules, rfl, compile_ok_iff.mpr ⟨rules ++ extra, ?_, ?_⟩⟩
  · rw [List.zipIdx_append, Nat.zero_add]
    exact List.rel_append hrules hmore
  · simp [assembled, classNames, List.zipIdx_append]

/-- **A component is compiled style by style.** It compiles exactly if every style is an object
that compiles alone, for the class name made of its key and its place. It then comes to the class
names in the order of the styles, and to the container's rule with the rules of the styles alone
behind it, in its layer. Else it is refused for its first style that is no object or does not
compile alone. Another body for one style changes its own rules only, and further styles only add
to what there is. -/
theorem compile_style_by_style (c : Component) (settings : Settings) :
    ((∃ compiled, (c.compile settings).outcome = .ok compiled) ↔
      ∀ entry ∈ c.styles.zipIdx, ∃ rules, CompilesTo entry rules)
    ∧ (∀ compiled, (c.compile settings).outcome = .ok compiled ↔
        ∃ rules, List.Forall₂ CompilesTo c.styles.zipIdx rules
          ∧ compiled = c.assembled settings rules)
    ∧ (∀ fault, (c.compile settings).outcome = .error fault ↔
        ∃ before entry after, c.styles = before ++ entry :: after
          ∧ (∀ earlier ∈ before.zipIdx, ∃ rules, CompilesTo earlier rules)
          ∧ RefusedFor (entry, before.length) fault)
    ∧ (∀ before key old after, c.styles = before ++ (key, .object old) :: after →
        ∀ compiled, (c.compile settings).outcome = .ok compiled →
        ∀ new newRules,
          (Style.compile (Name.ofStyle key before.length) new).outcome = .ok newRules →
        ∃ rulesBefore oldRules rulesAfter,
          List.Forall₂ CompilesTo before.zipIdx rulesBefore
          ∧ (Style.compile (Name.ofStyle key before.length) old).outcome = .ok oldRules
          ∧ List.Forall₂ CompilesTo (after.zipIdx (before.length + 1)) rulesAfter
          ∧ compiled = c.assembled settings (rulesBefore ++ oldRules :: rulesAfter)
          ∧ ({ c with styles := before ++ (key, Value.object new) :: after }.compile
              settings).outcome =
            .ok ⟨compiled.classes,
              (c.assembled settings (rulesBefore ++ newRules :: rulesAfter)).css⟩)
    ∧ ∀ compiled, (c.compile settings).outcome = .ok compiled →
        ∀ more extra, List.Forall₂ CompilesTo (List.zipIdx more c.styles.length) extra →
        ∃ rules, List.Forall₂ CompilesTo c.styles.zipIdx rules
          ∧ compiled = c.assembled settings rules
          ∧ ({ c with styles := c.styles ++ more }.compile settings).outcome =
            .ok ⟨compiled.classes ++ classNames (more.zipIdx c.styles.length),
              (c.assembled settings (rules ++ extra)).css⟩ := by
  refine ⟨exists_compile_ok_iff, fun _ => compile_ok_iff, fun _ => compile_error_iff, ?_, ?_⟩
  · intro before key old after hstyles compiled hold new newRules hnew
    exact compile_replace hstyles hold hnew
  · intro compiled hok more extra hmore
    exact compile_append hok hmore

/-- A card in a container gets another body, and a menu that is malformed comes behind it. -/
theorem compile_style_by_style_menu :
    let card : Component :=
      { styles := [("card", .object [("padding", .int 8)]), ("badge", .object [])]
        container := some ⟨.str "card", .str "inline-size"⟩ }
    let new : Members := [("color", .str "red")]
    let menu : String × Value := ("menu", .object [("&:hover", .int 1)])
    (∃ compiled recoloured, (card.compile {}).outcome = .ok compiled
      ∧ compiled.css =
          "@layer components \x7b .component-container \x7b " ++
            "container-name: card; container-type: inline-size; \x7d\n" ++
              ".card-1k7zfk \x7b padding: 8px; \x7d \x7d"
      ∧ ({ card with styles := [("card", .object new), ("badge", .object [])] }.compile
          {}).outcome = .ok recoloured
      ∧ recoloured.classes = compiled.classes)
    ∧ ({ card with styles := card.styles ++ [menu] }.compile {}).outcome =
        .error ⟨.nestedNotObject "&:hover" .int, ["menu"]⟩ := by
  intro card new menu
  obtain ⟨hcompiles, hassembled, -, hreplace, -⟩ := compile_style_by_style card {}
  obtain ⟨-, -, hrefused, -, -⟩ :=
    compile_style_by_style { card with styles := card.styles ++ [menu] } {}
  have hrules : List.Forall₂ CompilesTo card.styles.zipIdx [_, _] :=
    .cons ⟨_, rfl, rfl⟩ (.cons ⟨_, rfl, rfl⟩ .nil)
  have hcompiled := (hassembled _).mpr ⟨_, hrules, rfl⟩
  have hcard : ∀ entry ∈ card.styles.zipIdx, ∃ rules, CompilesTo entry rules :=
    hcompiles.mp ⟨_, hcompiled⟩
  obtain ⟨before, oldRules, after, -, -, -, -, hnew⟩ :=
    hreplace [] "card" _ _ rfl _ hcompiled new _ rfl
  refine ⟨⟨_, _, hcompiled, by decide +kernel, hnew, rfl⟩, ?_⟩
  exact (hrefused _).mpr ⟨card.styles, menu, [], rfl, hcard, .malformed rfl⟩

end Component

end Cascade
