import Cascade.Proofs.Style.Interchange

/-!
# What the order of entries does not say

Sorting throws away how entries of different kinds stand among each other, null entries, and
whatever declares nothing. `Members.Rearrangement` lists the changes that only touch these things,
for the entries of one node; `Members.Rearranged` is any number of them, at any nodes of a tree.
The rules of a well-formed style object are the same before and after (`compile_rearranged`).
-/

namespace Cascade

namespace Members

/-! ## Rearrangements -/

/-- A change of some entries of a node that concerns only what sorting throws away. -/
inductive Rearrangement : Members → Members → Prop
  | dropNull (key : String) : Rearrangement [(key, .null)] []
  | addNull (key : String) : Rearrangement [] [(key, .null)]
  | dropNullCondition (rule : AtRule) (condition : String) (earlier later : Members) :
      Rearrangement [(rule.keyword, .object (earlier ++ [(condition, .null)] ++ later))]
        [(rule.keyword, .object (earlier ++ later))]
  | addNullCondition (rule : AtRule) (condition : String) (earlier later : Members) :
      Rearrangement [(rule.keyword, .object (earlier ++ later))]
        [(rule.keyword, .object (earlier ++ [(condition, .null)] ++ later))]
  /-- A nested selector under which nothing is declared. -/
  | dropNested {key : String} {inner : Members} (hkey : KeyKind.ofKey key = .nested)
      (hinner : inner.Silent) : Rearrangement [(key, .object inner)] []
  /-- A condition under which nothing is declared. -/
  | dropCondition (rule : AtRule) (condition : String) {inner : Members} (earlier later : Members)
      (hinner : inner.Silent) :
      Rearrangement [(rule.keyword, .object (earlier ++ [(condition, .object inner)] ++ later))]
        [(rule.keyword, .object (earlier ++ later))]
  /-- A group with only such conditions. -/
  | dropGroup (rule : AtRule) {group : Members}
      (hgroup : ∀ condition inner, (condition, .object inner) ∈ group → Silent inner) :
      Rearrangement [(rule.keyword, .object group)] []
  /-- Another order, in which the entries of each kind follow one another as before. -/
  | reorder {part other : Members} (hperm : part.Perm other)
      (hkinds : ∀ kind, part.ofKind kind = other.ofKind kind) : Rearrangement part other

/-- Any number of rearrangements at any depth of a style object. -/
abbrev Rearranged : Members → Members → Prop :=
  Relation.ReflTransGen (Somewhere Rearrangement)

/-! ## What they leave alone -/

/-- Entries that differ only in their order, and not within a kind. -/
theorem Interchangeable.of_ofKind_eq {part other : Members}
    (h : ∀ kind, part.ofKind kind = other.ofKind kind) : Interchangeable part other where
  declarations := by rw [properties, properties, h]
  nested selector := by rw [nestedChildren, nestedChildren, h]
  conditions rule selector := by rw [conditionChildren, conditionChildren, h]

theorem wellFormed_group_append {rule : AtRule} {earlier later : Members} {condition : String}
    {value : Value} :
    WellFormed [(rule.keyword, .object (earlier ++ [(condition, value)] ++ later))] ↔
      ConditionWellFormed value ∧ WellFormed [(rule.keyword, .object (earlier ++ later))] := by
  rw [wellFormed_group_iff, wellFormed_group_iff]
  simp only [List.forall_mem_append, List.forall_mem_singleton]
  constructor
  · rintro ⟨⟨hearlier, hcondition⟩, hlater⟩
    exact ⟨hcondition, hearlier, hlater⟩
  · rintro ⟨hcondition, hearlier, hlater⟩
    exact ⟨⟨hearlier, hcondition⟩, hlater⟩

/-- A condition without rules does not show. -/
theorem Interchangeable.drop_condition {rule : AtRule} {earlier later : Members}
    {condition : String} {value : Value}
    (h : ∀ selector, rulesUnder rule selector [(condition, value)] = []) :
    Interchangeable [(rule.keyword, .object (earlier ++ [(condition, value)] ++ later))]
      [(rule.keyword, .object (earlier ++ later))] :=
  .groupEntry fun selector => by
    rw [rulesUnder_append, rulesUnder_append, rulesUnder_append, h, List.append_nil]

theorem harmless_rearrangement : Harmless Rearrangement := by
  intro part other h hwell
  cases h with
  | dropNull key => exact ⟨wellFormed_nil, .of_silent hwell (silent_null key)⟩
  | addNull key =>
    exact ⟨wellFormed_null key,
      (Interchangeable.of_silent (wellFormed_null key) (silent_null key)).symm⟩
  | dropNullCondition rule condition earlier later =>
    exact ⟨(wellFormed_group_append.mp hwell).2,
      .drop_condition fun selector => rulesUnder_null rule selector condition⟩
  | addNullCondition rule condition earlier later =>
    exact ⟨wellFormed_group_append.mpr ⟨.inl rfl, hwell⟩,
      (Interchangeable.drop_condition fun selector =>
        rulesUnder_null rule selector condition).symm⟩
  | dropNested hkey hinner => exact ⟨wellFormed_nil, .of_silent hwell (silent_nested hkey hinner)⟩
  | @dropCondition rule condition inner earlier later hinner =>
    obtain ⟨hcondition, hrest⟩ := wellFormed_group_append.mp hwell
    refine ⟨hrest, .drop_condition fun selector => ?_⟩
    rcases hcondition with hnull | ⟨found, hfound, hwellInner⟩
    · cases hnull
    · obtain rfl := Value.object.inj hfound
      rw [rulesUnder_object, (Block.rules_eq_nil_iff_silent hwellInner selector).mpr hinner]
      rfl
  | dropGroup rule hgroup => exact ⟨wellFormed_nil, .of_silent hwell (silent_group hgroup)⟩
  | reorder hperm hkinds =>
    exact ⟨hwell.of_subset fun entry hentry => hperm.mem_iff.mpr hentry, .of_ofKind_eq hkinds⟩

end Members

namespace Style

/-- **Only what a style object says matters.** Null entries and null conditions, entries under
which nothing is declared, and the order of entries of different kinds may change at any nodes of
a well-formed style object: it compiles to the same rules. -/
theorem compile_rearranged {style other : Members} (hwell : style.WellFormed)
    (h : style.Rearranged other) (className : String) :
    ∃ rules, (compile className style).outcome = .ok rules
      ∧ (compile className other).outcome = .ok rules :=
  compile_outcome_of_changes Members.harmless_rearrangement h hwell className

/-- A selector under which nothing is declared stands first, and a property behind a group. -/
def untidy : Members :=
  [("&:hover", .object [("color", .null), ("@media", .object [("print", .object [])])]),
   ("@media", .object
     [("mobile", .object [("margin", .null), ("padding", .int 4)]), ("tablet", .null)]),
   ("padding", .int 8)]

def tidy : Members :=
  [("padding", .int 8), ("@media", .object [("mobile", .object [("padding", .int 4)])])]

theorem compile_rearranged_tidy :
    untidy.WellFormed ∧ untidy.Rearranged tidy
      ∧ ∃ rules, (compile "card" untidy).outcome = .ok rules
        ∧ (compile "card" tidy).outcome = .ok rules := by
  have hwell : untidy.WellFormed :=
    wellFormed_of_compile_outcome (show (compile "card" untidy).outcome = .ok _ from rfl)
  have hhover :
      Members.Silent [("color", .null), ("@media", .object [("print", .object [])])] := by
    refine (Block.rules_eq_nil_iff_silent ?_ "").mp rfl
    exact wellFormed_of_compile_outcome (show (compile "card" _).outcome = .ok _ from rfl)
  have hreorder : Members.Rearrangement tidy.reverse tidy := by
    refine .reorder (List.reverse_perm tidy) fun kind => ?_
    cases kind with
    | group rule => cases rule <;> rfl
    | _ => rfl
  have hsteps : untidy.Rearranged tidy := by
    refine .head (.here [] untidy.tail (Members.Rearrangement.dropNested (by decide) hhover)) ?_
    refine .head (.here [] [("padding", .int 8)]
      (Members.Rearrangement.dropNullCondition .media "tablet" [_] [])) ?_
    refine .head (@Members.Somewhere.under _ .media "mobile" _ _ [] [("padding", .int 8)] [] []
      (.here [] [("padding", .int 4)] (Members.Rearrangement.dropNull "margin"))) ?_
    exact .single (.here [] [] hreorder)
  exact ⟨hwell, hsteps, compile_rearranged hwell hsteps "card"⟩

end Style

end Cascade
