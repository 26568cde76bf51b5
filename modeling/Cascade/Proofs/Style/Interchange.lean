import Cascade.Proofs.Style.Blame
import Cascade.Proofs.Style.Entry
import Mathlib.Logic.Relation

/-!
# Parts that may stand for each other

A change to a style object mostly touches a few entries of one node and leaves everything around
them. `Members.Interchangeable` says of two lists of entries that a node compiles to the same
rules with either of them, whatever stands before and behind; `Members.Somewhere` makes a change
of entries in one node a change of the tree that the node is in.

A kind of change that only exchanges interchangeable parts, and keeps them well formed, does not
show in what a style object compiles to, however often and wherever it is made
(`compile_outcome_of_changes`).
-/

namespace Cascade

namespace Members

/-! ## Interchangeable parts -/

/-- The rules of the conditions in a group. -/
def rulesUnder (rule : AtRule) (selector : String) (group : Members) : List Rule :=
  group.objects.flatMap fun (condition, inner) =>
    Rule.ofGroup rule condition ((Block.ofMembers inner).rules selector)

theorem rulesUnder_append (rule : AtRule) (selector : String) (first second : Members) :
    rulesUnder rule selector (first ++ second) =
      rulesUnder rule selector first ++ rulesUnder rule selector second := by
  rw [rulesUnder, objects_append, List.flatMap_append, ← rulesUnder, ← rulesUnder]

theorem rulesUnder_null (rule : AtRule) (selector condition : String) :
    rulesUnder rule selector [(condition, .null)] = [] := rfl

theorem rulesUnder_object (rule : AtRule) (selector condition : String) (inner : Members) :
    rulesUnder rule selector [(condition, .object inner)] =
      Rule.ofGroup rule condition ((Block.ofMembers inner).rules selector) := by
  simp [rulesUnder, objects, Value.members?]

theorem flatMap_conditionChildren_keyword (rule : AtRule) (selector : String) (group : Members) :
    (conditionChildren rule [(rule.keyword, .object group)]).flatMap (Block.childRules selector) =
      group.rulesUnder rule selector := by
  rw [conditionChildren_keyword, List.flatMap_map]
  rfl

/-- Lists of entries that give the same declarations, and the same rules kind by kind. -/
structure Interchangeable (part other : Members) : Prop where
  declarations :
    part.properties.map Declaration.ofMember = other.properties.map Declaration.ofMember
  nested : ∀ selector, part.nestedChildren.flatMap (Block.childRules selector) =
    other.nestedChildren.flatMap (Block.childRules selector)
  conditions : ∀ rule selector,
    (part.conditionChildren rule).flatMap (Block.childRules selector) =
      (other.conditionChildren rule).flatMap (Block.childRules selector)

namespace Interchangeable

variable {part other : Members}

theorem refl (part : Members) : Interchangeable part part :=
  ⟨rfl, fun _ => rfl, fun _ _ => rfl⟩

theorem symm (h : Interchangeable part other) : Interchangeable other part :=
  ⟨h.declarations.symm, fun selector => (h.nested selector).symm,
    fun rule selector => (h.conditions rule selector).symm⟩

theorem trans {last : Members} (h : Interchangeable part other)
    (h' : Interchangeable other last) :
    Interchangeable part last :=
  ⟨h.declarations.trans h'.declarations,
    fun selector => (h.nested selector).trans (h'.nested selector),
    fun rule selector => (h.conditions rule selector).trans (h'.conditions rule selector)⟩

theorem append {part' other' : Members} (h : Interchangeable part other)
    (h' : Interchangeable part' other') : Interchangeable (part ++ part') (other ++ other') where
  declarations := by
    rw [properties_append, properties_append, List.map_append, List.map_append, h.declarations,
      h'.declarations]
  nested selector := by
    rw [nestedChildren_append, nestedChildren_append, List.flatMap_append, List.flatMap_append,
      h.nested, h'.nested]
  conditions rule selector := by
    rw [conditionChildren_append, conditionChildren_append, List.flatMap_append,
      List.flatMap_append, h.conditions, h'.conditions]

theorem inside (h : Interchangeable part other) (before after : Members) :
    Interchangeable (before ++ part ++ after) (before ++ other ++ after) :=
  ((refl before).append h).append (refl after)

/-- Interchangeable style objects compile to the same rules. -/
theorem rules_eq (h : Interchangeable part other) (hpart : part.WellFormed)
    (hother : other.WellFormed) (selector : String) :
    (Block.ofMembers part).rules selector = (Block.ofMembers other).rules selector := by
  simp only [Block.rules_ofMembers_of_wellFormed hpart,
    Block.rules_ofMembers_of_wellFormed hother, children, List.flatMap_append,
    List.flatMap_assoc, h.declarations, h.nested, h.conditions]

/-- Whatever declares nothing can be left out. -/
theorem of_silent (hpart : part.WellFormed) (hsilent : part.Silent) :
    Interchangeable part [] := by
  obtain ⟨hproperties, hchildren⟩ := everywhere_iff.mp hsilent
  have hnone : ∀ (found : List (Branch × Members)) (selector : String),
      (∀ child ∈ found, child ∈ part.children) → found.flatMap (Block.childRules selector) = [] :=
    fun found selector hfound => List.flatMap_eq_nil_iff.mpr fun child hchild =>
      (Block.childRules_eq_nil_iff ((everywhere_iff.mp hpart).2 child (hfound child hchild))
        selector).mpr (hchildren child (hfound child hchild))
  refine ⟨by rw [hproperties]; rfl, fun selector => ?_, fun rule selector => ?_⟩
  · exact hnone _ selector fun child hchild => List.mem_append_left _ hchild
  · refine hnone _ selector fun child hchild => List.mem_append_right _ ?_
    exact List.mem_flatMap.mpr ⟨rule, by cases rule <;> decide, hchild⟩

theorem property {key key' : String} {value value' : Value}
    (hkey : KeyKind.ofKey key = .property) (hkey' : KeyKind.ofKey key' = .property)
    (hnull : value.isNull = false) (hnull' : value'.isNull = false)
    (h : Declaration.ofMember (key, value) = Declaration.ofMember (key', value')) :
    Interchangeable [(key, value)] [(key', value')] where
  declarations := by
    rw [properties_property hkey hnull, properties_property hkey' hnull', List.map_singleton,
      List.map_singleton, h]
  nested selector := by
    rw [nestedChildren_of_ne (by simp [hkey]), nestedChildren_of_ne (by simp [hkey'])]
  conditions rule selector := by
    rw [conditionChildren_of_ne (by simp [hkey]), conditionChildren_of_ne (by simp [hkey'])]

theorem nestedEntry {key : String} {inner inner' : Members} (hkey : KeyKind.ofKey key = .nested)
    (h : ∀ selector, (Block.ofMembers inner).rules selector =
      (Block.ofMembers inner').rules selector) :
    Interchangeable [(key, .object inner)] [(key, .object inner')] where
  declarations := by
    rw [properties_of_ne (by simp [hkey]), properties_of_ne (by simp [hkey])]
  nested selector := by
    rw [nestedChildren_nested hkey, nestedChildren_nested hkey, List.flatMap_singleton,
      List.flatMap_singleton, Block.childRules, Block.childRules, h]
  conditions rule selector := by
    rw [conditionChildren_of_ne (by simp [hkey]), conditionChildren_of_ne (by simp [hkey])]

theorem groupEntry {rule : AtRule} {group group' : Members}
    (h : ∀ selector, group.rulesUnder rule selector = group'.rulesUnder rule selector) :
    Interchangeable [(rule.keyword, .object group)] [(rule.keyword, .object group')] where
  declarations := by
    rw [properties_of_ne (by simp [KeyKind.ofKey_keyword]),
      properties_of_ne (by simp [KeyKind.ofKey_keyword])]
  nested selector := by
    rw [nestedChildren_of_ne (by simp [KeyKind.ofKey_keyword]),
      nestedChildren_of_ne (by simp [KeyKind.ofKey_keyword])]
  conditions found selector := by
    by_cases hrule : found = rule
    · subst hrule
      rw [flatMap_conditionChildren_keyword, flatMap_conditionChildren_keyword, h]
    · rw [conditionChildren_keyword_of_ne hrule, conditionChildren_keyword_of_ne hrule]

end Interchangeable

/-! ## Changes at any depth -/

/-- A change of entries made in one node of a tree: in the style object itself, or in one inside
it. -/
inductive Somewhere (change : Members → Members → Prop) : Members → Members → Prop
  | here {part other : Members} (before after : Members) (h : change part other) :
      Somewhere change (before ++ part ++ after) (before ++ other ++ after)
  | nested {key : String} {inner other : Members} (before after : Members)
      (hkey : KeyKind.ofKey key = .nested) (h : Somewhere change inner other) :
      Somewhere change (before ++ [(key, .object inner)] ++ after)
        (before ++ [(key, .object other)] ++ after)
  | under {rule : AtRule} {condition : String} {inner other : Members}
      (before after earlier later : Members) (h : Somewhere change inner other) :
      Somewhere change
        (before ++ [(rule.keyword, .object (earlier ++ [(condition, .object inner)] ++ later))]
          ++ after)
        (before ++ [(rule.keyword, .object (earlier ++ [(condition, .object other)] ++ later))]
          ++ after)

/-- A kind of change that keeps entries well formed and interchangeable. -/
def Harmless (change : Members → Members → Prop) : Prop :=
  ∀ part other, change part other → part.WellFormed →
    other.WellFormed ∧ Interchangeable part other

variable {change : Members → Members → Prop} {style other : Members}

theorem wellFormed_inside {before part after : Members} :
    WellFormed (before ++ part ++ after) ↔
      (before.WellFormed ∧ part.WellFormed) ∧ after.WellFormed := by
  rw [wellFormed_append, wellFormed_append]

/-- Made in an inner node, a harmless change is a harmless change of the entry that leads there. -/
theorem Harmless.somewhere (hchange : Harmless change) : Harmless (Somewhere change) := by
  intro style other h
  induction h with
  | here before after h =>
    intro hwell
    obtain ⟨⟨hbefore, hpart⟩, hafter⟩ := wellFormed_inside.mp hwell
    obtain ⟨hother, hsame⟩ := hchange _ _ h hpart
    exact ⟨wellFormed_inside.mpr ⟨⟨hbefore, hother⟩, hafter⟩, hsame.inside before after⟩
  | @nested key inner other before after hkey _ ih =>
    intro hwell
    obtain ⟨⟨hbefore, hentry⟩, hafter⟩ := wellFormed_inside.mp hwell
    have hinner := (wellFormed_nested_iff hkey).mp hentry
    obtain ⟨hother, hsame⟩ := ih hinner
    have hentry' := (wellFormed_nested_iff hkey).mpr hother
    refine ⟨wellFormed_inside.mpr ⟨⟨hbefore, hentry'⟩, hafter⟩, ?_⟩
    exact (Interchangeable.nestedEntry hkey (hsame.rules_eq hinner hother)).inside before after
  | @under rule condition inner other before after earlier later _ ih =>
    intro hwell
    obtain ⟨⟨hbefore, hentry⟩, hafter⟩ := wellFormed_inside.mp hwell
    have hgroup := wellFormed_group_iff.mp hentry
    simp only [List.forall_mem_append, List.forall_mem_singleton] at hgroup
    obtain ⟨⟨hearlier, hcondition⟩, hlater⟩ := hgroup
    have hinner : inner.WellFormed := by
      rcases hcondition with hnull | ⟨found, hfound, hwell⟩
      · cases hnull
      · rwa [Value.object.inj hfound]
    obtain ⟨hother, hsame⟩ := ih hinner
    have hentry' : WellFormed
        [(rule.keyword, .object (earlier ++ [(condition, .object other)] ++ later))] := by
      refine wellFormed_group_iff.mpr ?_
      simp only [List.forall_mem_append, List.forall_mem_singleton]
      exact ⟨⟨hearlier, .inr ⟨other, rfl, hother⟩⟩, hlater⟩
    refine ⟨wellFormed_inside.mpr ⟨⟨hbefore, hentry'⟩, hafter⟩, ?_⟩
    refine (Interchangeable.groupEntry fun selector => ?_).inside before after
    simp only [rulesUnder_append, rulesUnder_object, hsame.rules_eq hinner hother]

/-- Harmless changes, made one after the other at any depth, do not show in the rules. -/
theorem Harmless.steps (hchange : Harmless change)
    (h : Relation.ReflTransGen (Somewhere change) style other) (hwell : style.WellFormed) :
    other.WellFormed ∧ ∀ selector,
      (Block.ofMembers other).rules selector = (Block.ofMembers style).rules selector := by
  induction h with
  | refl => exact ⟨hwell, fun _ => rfl⟩
  | tail _ hstep ih =>
    obtain ⟨hmiddle, hrules⟩ := ih
    obtain ⟨hother, hsame⟩ := hchange.somewhere _ _ hstep hmiddle
    exact ⟨hother, fun selector => (hsame.rules_eq hmiddle hother selector).symm.trans
      (hrules selector)⟩

end Members

namespace Style

/-- A style object and what harmless changes make of it both compile, to the same rules. -/
theorem compile_outcome_of_changes {change : Members → Members → Prop} {style other : Members}
    (hchange : Members.Harmless change)
    (h : Relation.ReflTransGen (Members.Somewhere change) style other) (hwell : style.WellFormed)
    (className : String) :
    ∃ rules, (compile className style).outcome = .ok rules
      ∧ (compile className other).outcome = .ok rules := by
  obtain ⟨hother, hrules⟩ := hchange.steps h hwell
  refine ⟨_, compile_outcome_of_wellFormed hwell className, ?_⟩
  rw [compile_outcome_of_wellFormed hother, hrules]

end Style

end Cascade
