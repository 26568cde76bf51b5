import Cascade.Proofs.Style.Blame
import Cascade.Proofs.Style.Entry
import Cascade.Style.Pattern

/-!
# Variants under a media condition

`Pattern.darkMode` and `Pattern.reducedMotion` give a style object a media condition for its
variant. The condition does not join those that the style object has: it takes their place. So a
variant adds one block to the rules and loses none exactly if no media condition of the style
object declares anything (`variant_rules`), and a variant of a variant keeps only the outer one.
-/

namespace Cascade

/-! ## Setting a member -/

namespace Members

theorem ofKind_set_of_ne {key : String} {kind : KeyKind} (h : KeyKind.ofKey key ≠ kind)
    (value : Value) (members : Members) :
    ofKind kind (members.set key value) = members.ofKind kind := by
  induction members with
  | nil => simp [set, ofKind, h]
  | cons first rest ih =>
    obtain ⟨k, v⟩ := first
    simp only [ofKind] at ih ⊢
    rw [set]
    split
    · rename_i hkey
      subst hkey
      simp [h]
    · simp only [List.filter_cons, ih]

theorem ofKind_eq_nil_of_not_mem {rule : AtRule} {members : Members}
    (h : rule.keyword ∉ members.map Prod.fst) : members.ofKind (.group rule) = [] := by
  rw [ofKind, List.filter_eq_nil_iff]
  rintro ⟨key, value⟩ hmem hkey
  obtain rfl := KeyKind.ofKey_eq_group_iff.mp (of_decide_eq_true hkey)
  exact h (List.mem_map.mpr ⟨_, hmem, rfl⟩)

/-- A group that is set is the only one of its kind. -/
theorem ofKind_set_keyword {members : Members} (h : (members.map Prod.fst).Nodup) (rule : AtRule)
    (value : Value) :
    ofKind (.group rule) (members.set rule.keyword value) = [(rule.keyword, value)] := by
  induction members with
  | nil => simp [set, ofKind, KeyKind.ofKey_keyword]
  | cons first rest ih =>
    obtain ⟨k, v⟩ := first
    obtain ⟨hk, hrest⟩ := List.nodup_cons.mp h
    rw [set]
    split
    · rename_i hkey
      subst hkey
      rw [ofKind, List.filter_cons_of_pos (by simp [KeyKind.ofKey_keyword]), ← ofKind,
        ofKind_eq_nil_of_not_mem hk]
    · rename_i hkey
      have hkind : KeyKind.ofKey k ≠ .group rule := fun hkind =>
        hkey (KeyKind.ofKey_eq_group_iff.mp hkind)
      rw [ofKind, List.filter_cons_of_neg (by simp [hkind]), ← ofKind, ih hrest]

theorem ofKind_ofKind_self (kind : KeyKind) (members : Members) :
    ofKind kind (members.ofKind kind) = members.ofKind kind := by
  rw [ofKind, ofKind, List.filter_filter]
  simp

theorem ofKind_ofKind_of_ne {kind other : KeyKind} (h : other ≠ kind) (members : Members) :
    ofKind kind (members.ofKind other) = [] := by
  rw [ofKind, List.filter_eq_nil_iff]
  intro entry hentry hkind
  exact h ((mem_ofKind.mp hentry).2.symm.trans (of_decide_eq_true hkind))

/-- No condition of the style object's own media group declares anything. -/
def MediaSilent (style : Members) : Prop :=
  ∀ (group : Members) (condition : String) (inner : Members),
    ("@media", .object group) ∈ style → (condition, .object inner) ∈ group → inner.Silent

theorem mediaSilent_iff {style : Members} :
    style.MediaSilent ↔ ∀ child ∈ style.conditionChildren .media, child.2.Silent := by
  constructor
  · rintro h ⟨branch, inner⟩ hchild
    obtain ⟨condition, group, -, hgroup, hinner⟩ := mem_conditionChildren.mp hchild
    exact h group condition inner hgroup hinner
  · intro h group condition inner hgroup hinner
    exact h _ (mem_conditionChildren.mpr ⟨condition, group, rfl, hgroup, hinner⟩)

end Members

/-! ## Rules around the media group -/

namespace Block

/-- The rules that come before those of media conditions. -/
def rulesBeforeMedia (selector : String) (style : Members) : List Rule :=
  Rule.ofDeclarations selector (style.properties.map Declaration.ofMember)
    ++ (style.nestedChildren ++ style.conditionChildren .container).flatMap (childRules selector)

/-- The rules under the conditions of one kind of group. -/
def conditionRules (rule : AtRule) (selector : String) (style : Members) : List Rule :=
  (style.conditionChildren rule).flatMap (childRules selector)

theorem rules_eq_around_media {style : Members} (h : style.WellFormed) (selector : String) :
    (ofMembers style).rules selector =
      rulesBeforeMedia selector style ++ conditionRules .media selector style
        ++ conditionRules .supports selector style := by
  rw [rules_ofMembers_of_wellFormed h, Members.children]
  simp [rulesBeforeMedia, conditionRules, AtRule.all]

theorem conditionRules_media_eq_nil_iff {style : Members} (h : style.WellFormed)
    (selector : String) : conditionRules .media selector style = [] ↔ style.MediaSilent := by
  rw [conditionRules, List.flatMap_eq_nil_iff, Members.mediaSilent_iff]
  refine forall₂_congr fun child hchild => childRules_eq_nil_iff ?_ selector
  obtain ⟨branch, inner⟩ := child
  obtain ⟨condition, group, hbranch, hgroup, hinner⟩ := Members.mem_conditionChildren.mp hchild
  have hmem : (branch, inner) ∈ style.children :=
    Members.mem_children.mpr (.inr ⟨_, condition, group, hbranch, hgroup, hinner⟩)
  exact (Members.everywhere_iff.mp h).2 _ hmem

/-- A style object's media group on its own has just the rules of its conditions. -/
theorem rules_ofKind_media {style : Members} (h : style.WellFormed) (selector : String) :
    (ofMembers (style.ofKind (.group .media))).rules selector =
      conditionRules .media selector style := by
  have hsub : ∀ entry ∈ style.ofKind (.group .media), entry ∈ style :=
    fun entry hentry => (Members.mem_ofKind.mp hentry).1
  have hother : ∀ kind, .group .media ≠ kind →
      Members.ofKind kind (style.ofKind (.group .media)) = [] :=
    fun kind hkind => Members.ofKind_ofKind_of_ne hkind style
  have hproperties : Members.properties (style.ofKind (.group .media)) = [] := by
    rw [Members.properties, hother .property (by decide), List.filter_nil]
  have hnested : Members.nestedChildren (style.ofKind (.group .media)) = [] := by
    rw [Members.nestedChildren, hother .nested (by decide)]
    rfl
  have hcontainer : Members.conditionChildren .container (style.ofKind (.group .media)) = [] := by
    rw [Members.conditionChildren, hother (.group .container) (by decide)]
    rfl
  have hsupports : Members.conditionChildren .supports (style.ofKind (.group .media)) = [] := by
    rw [Members.conditionChildren, hother (.group .supports) (by decide)]
    rfl
  have hmedia : Members.conditionChildren .media (style.ofKind (.group .media)) =
      style.conditionChildren .media := by
    rw [Members.conditionChildren, Members.ofKind_ofKind_self, ← Members.conditionChildren]
  rw [rules_eq_around_media (h.of_subset hsub), rulesBeforeMedia, conditionRules, conditionRules,
    conditionRules, hproperties, hnested, hcontainer, hsupports, hmedia]
  simp [Rule.ofDeclarations]

end Block

/-! ## Variants -/

namespace Pattern

section

variable {a b : Members} {condition : String}

theorem properties_underCondition :
    Members.properties (underCondition condition a b) = a.properties := by
  rw [Members.properties, underCondition, Members.ofKind_set_of_ne (by decide),
    Members.properties]

theorem nestedChildren_underCondition :
    Members.nestedChildren (underCondition condition a b) = a.nestedChildren := by
  rw [Members.nestedChildren, underCondition, Members.ofKind_set_of_ne (by decide),
    Members.nestedChildren]

theorem conditionChildren_underCondition_of_ne {rule : AtRule} (h : rule ≠ .media) :
    Members.conditionChildren rule (underCondition condition a b) = a.conditionChildren rule := by
  have hkind : KeyKind.ofKey "@media" ≠ .group rule := fun hkind =>
    h (KeyKind.group.inj ((KeyKind.ofKey_keyword .media).symm.trans hkind)).symm
  rw [Members.conditionChildren, underCondition, Members.ofKind_set_of_ne hkind,
    Members.conditionChildren]

theorem conditionChildren_underCondition_media (h : (a.map Prod.fst).Nodup) :
    Members.conditionChildren .media (underCondition condition a b) =
      [(.under .media condition, b)] := by
  have hkind : Members.ofKind (.group .media) (underCondition condition a b) =
      [("@media", .object [(condition, .object b)])] := Members.ofKind_set_keyword h .media _
  rw [Members.conditionChildren, hkind]
  rfl

theorem wellFormed_underCondition (ha : a.WellFormed) (hb : b.WellFormed) :
    Members.WellFormed (underCondition condition a b) := by
  obtain ⟨hroot, hchildren⟩ := Members.everywhere_iff.mp ha
  refine Members.everywhere_iff.mpr ⟨List.flatMap_eq_nil_iff.mpr fun entry hentry => ?_, ?_⟩
  · rcases Members.mem_set hentry with rfl | hentry
    · rfl
    · exact List.flatMap_eq_nil_iff.mp hroot entry hentry
  · rintro ⟨branch, inner⟩ hchild
    rcases Members.mem_children.mp hchild with
      ⟨key, hbranch, hmem, hkey⟩ | ⟨rule, name, group, hbranch, hmem, hinner⟩
    · rcases Members.mem_set hmem with heq | hmem
      · obtain ⟨rfl, -⟩ := Prod.mk.injEq .. |>.mp heq
        exact absurd hkey (by decide)
      · exact hchildren (branch, inner)
          (Members.mem_children.mpr (.inl ⟨key, hbranch, hmem, hkey⟩))
    · rcases Members.mem_set hmem with heq | hmem
      · obtain ⟨-, hgroup⟩ := Prod.mk.injEq .. |>.mp heq
        obtain rfl := Value.object.inj hgroup
        obtain ⟨-, hobject⟩ := Prod.mk.injEq .. |>.mp (List.mem_singleton.mp hinner)
        obtain rfl := Value.object.inj hobject
        exact hb
      · exact hchildren (branch, inner)
          (Members.mem_children.mpr (.inr ⟨rule, name, group, hbranch, hmem, hinner⟩))

/-- The rules of a variant: the block of the condition stands where the media rules stood. -/
theorem rules_underCondition (ha : a.WellFormed) (hb : b.WellFormed)
    (hkeys : (a.map Prod.fst).Nodup) (selector : String) :
    (Block.ofMembers (underCondition condition a b)).rules selector =
      Block.rulesBeforeMedia selector a
        ++ Rule.ofGroup .media condition ((Block.ofMembers b).rules selector)
        ++ Block.conditionRules .supports selector a := by
  have hcontainer : Members.conditionChildren .container (underCondition condition a b) =
      a.conditionChildren .container := conditionChildren_underCondition_of_ne (by decide)
  have hsupports : Members.conditionChildren .supports (underCondition condition a b) =
      a.conditionChildren .supports := conditionChildren_underCondition_of_ne (by decide)
  rw [Block.rules_eq_around_media (wellFormed_underCondition ha hb), Block.rulesBeforeMedia,
    Block.conditionRules, Block.conditionRules, properties_underCondition,
    nestedChildren_underCondition, hcontainer, hsupports,
    conditionChildren_underCondition_media hkeys, List.flatMap_singleton]
  rfl

end

end Pattern

/-! ## Rule texts -/

namespace Style

/-- The rules of a style object for a class, as texts. -/
def ruleTexts (className : String) (style : Members) : Except Fault (List String) :=
  (compile className style).outcome.map (List.map Rule.text)

theorem ruleTexts_of_wellFormed {style : Members} (h : style.WellFormed) (className : String) :
    ruleTexts className style =
      .ok (((Block.ofMembers style).rules ("." ++ className)).map Rule.text) := by
  rw [ruleTexts, compile_outcome_of_wellFormed h]
  rfl

/-- The block that holds rules under a media query; without rules there is none. -/
def mediaBlock (query : String) (rules : List String) : List String :=
  if rules = [] then [] else ["@media " ++ query ++ " \x7b " ++ " ".intercalate rules ++ " \x7d"]

theorem map_text_ofGroup_media (condition : String) (rules : List Rule) :
    (Rule.ofGroup .media condition rules).map Rule.text =
      mediaBlock (Query.resolve condition) (rules.map Rule.text) := by
  cases rules with
  | nil => rfl
  | cons first rest =>
    simp [Rule.ofGroup, mediaBlock, Rule.text, AtRule.query, AtRule.keyword]

/-- `combined` has the rules of `a` in their order, and besides only the block that holds the
rules of `b` under the query. -/
def AddsBlock (className query : String) (a b combined : Members) : Prop :=
  ∃ before after inner,
    ruleTexts className a = .ok (before ++ after)
    ∧ ruleTexts className b = .ok inner
    ∧ ruleTexts className combined = .ok (before ++ mediaBlock query inner ++ after)

variable {a b : Members} {condition : String}

theorem ruleTexts_around_media (ha : a.WellFormed) (className : String) :
    ruleTexts className a =
      .ok ((Block.rulesBeforeMedia ("." ++ className) a).map Rule.text
        ++ (Block.conditionRules .media ("." ++ className) a).map Rule.text
        ++ (Block.conditionRules .supports ("." ++ className) a).map Rule.text) := by
  rw [ruleTexts_of_wellFormed ha, Block.rules_eq_around_media ha, List.map_append,
    List.map_append]

theorem ruleTexts_underCondition (ha : a.WellFormed) (hb : b.WellFormed)
    (hkeys : (a.map Prod.fst).Nodup) (className : String) :
    ruleTexts className (Pattern.underCondition condition a b) =
      .ok ((Block.rulesBeforeMedia ("." ++ className) a).map Rule.text
        ++ mediaBlock (Query.resolve condition)
          (((Block.ofMembers b).rules ("." ++ className)).map Rule.text)
        ++ (Block.conditionRules .supports ("." ++ className) a).map Rule.text) := by
  rw [ruleTexts_of_wellFormed (Pattern.wellFormed_underCondition ha hb),
    Pattern.rules_underCondition ha hb hkeys, List.map_append, List.map_append,
    map_text_ofGroup_media]

/-- A variant keeps all rules exactly if the style object's own media group gives none: counting
rules shows that nothing else makes room for the block. -/
theorem addsBlock_underCondition_iff (ha : a.WellFormed) (hb : b.WellFormed)
    (hkeys : (a.map Prod.fst).Nodup) (className : String) :
    AddsBlock className (Query.resolve condition) a b (Pattern.underCondition condition a b)
      ↔ a.MediaSilent := by
  rw [← Block.conditionRules_media_eq_nil_iff ha ("." ++ className)]
  constructor
  · rintro ⟨before, after, inner, hrules, hinner, hcombined⟩
    rw [ruleTexts_around_media ha] at hrules
    rw [ruleTexts_of_wellFormed hb] at hinner
    rw [ruleTexts_underCondition ha hb hkeys] at hcombined
    have hlen := congrArg List.length (Except.ok.inj hrules)
    have hlen' := congrArg List.length (Except.ok.inj hcombined)
    rw [← Except.ok.inj hinner] at hlen'
    simp only [List.length_append, List.length_map] at hlen hlen'
    exact List.eq_nil_of_length_eq_zero (by omega)
  · intro hnil
    refine ⟨_, _, _, ?_, ruleTexts_of_wellFormed hb className,
      ruleTexts_underCondition ha hb hkeys className⟩
    rw [ruleTexts_around_media ha, hnil, List.map_nil, List.append_nil]

/-- **What a variant keeps.** A variant puts the block of its condition in the place of the rules
that come from the style object's own media group, and keeps all others in their order. So it adds
one block and loses nothing exactly if no media condition of the style object declares anything;
and of a variant of a variant only the outer one remains. -/
theorem variant_rules (ha : a.WellFormed) (hb : b.WellFormed) (hkeys : (a.map Prod.fst).Nodup)
    (className : String) :
    (∃ before lost after inner,
      ruleTexts className a = .ok (before ++ lost ++ after)
      ∧ ruleTexts className (a.ofKind (.group .media)) = .ok lost
      ∧ ruleTexts className b = .ok inner
      ∧ ruleTexts className (Pattern.darkMode a b) =
          .ok (before ++ mediaBlock "(prefers-color-scheme: dark)" inner ++ after)
      ∧ ruleTexts className (Pattern.reducedMotion a b) =
          .ok (before ++ mediaBlock "(prefers-reduced-motion: reduce)" inner ++ after))
    ∧ (AddsBlock className "(prefers-color-scheme: dark)" a b (Pattern.darkMode a b)
        ↔ a.MediaSilent)
    ∧ (AddsBlock className "(prefers-reduced-motion: reduce)" a b (Pattern.reducedMotion a b)
        ↔ a.MediaSilent)
    ∧ ∀ c, Pattern.darkMode (Pattern.reducedMotion a b) c = Pattern.darkMode a c
        ∧ Pattern.reducedMotion (Pattern.darkMode a b) c = Pattern.reducedMotion a c := by
  have hdark : Query.resolve "dark" = "(prefers-color-scheme: dark)" := by decide
  have hreduced : Query.resolve "reduced-motion" = "(prefers-reduced-motion: reduce)" := by decide
  refine ⟨⟨_, _, _, _, ruleTexts_around_media ha className, ?_,
    ruleTexts_of_wellFormed hb className, ?_, ?_⟩, ?_, ?_, ?_⟩
  · have hsub : ∀ entry ∈ a.ofKind (.group .media), entry ∈ a :=
      fun entry hentry => (Members.mem_ofKind.mp hentry).1
    rw [ruleTexts_of_wellFormed (ha.of_subset hsub), Block.rules_ofKind_media ha]
  · rw [← hdark]
    exact ruleTexts_underCondition ha hb hkeys className
  · rw [← hreduced]
    exact ruleTexts_underCondition ha hb hkeys className
  · rw [← hdark]
    exact addsBlock_underCondition_iff ha hb hkeys className
  · rw [← hreduced]
    exact addsBlock_underCondition_iff ha hb hkeys className
  · intro c
    exact ⟨Members.set_set .., Members.set_set ..⟩

/-- A style object with a media condition of its own. -/
def responsive : Members :=
  [("color", .str "black"), ("@media", .object [("mobile", .object [("color", .str "gray")])])]

def inverted : Members :=
  [("color", .str "white")]

theorem variant_rules_responsive :
    responsive.WellFormed ∧ inverted.WellFormed ∧ (responsive.map Prod.fst).Nodup
      ∧ ¬ AddsBlock "card" "(prefers-color-scheme: dark)" responsive inverted
          (Pattern.darkMode responsive inverted)
      ∧ ¬ AddsBlock "card" "(prefers-reduced-motion: reduce)" responsive inverted
          (Pattern.reducedMotion responsive inverted) := by
  have hresponsive : responsive.WellFormed :=
    wellFormed_of_compile_outcome (show (compile "card" responsive).outcome = .ok _ from rfl)
  have hinverted : inverted.WellFormed :=
    wellFormed_of_compile_outcome (show (compile "card" inverted).outcome = .ok _ from rfl)
  have hkeys : (responsive.map Prod.fst).Nodup := by decide
  have hmobile : ¬ responsive.MediaSilent := fun hsilent => by
    have hinner := hsilent _ "mobile" [("color", .str "gray")] (.tail _ (.head _)) (.head _)
    exact absurd (hinner [] _ (.here _)) (by decide)
  obtain ⟨-, hdark, hreduced, -⟩ := variant_rules hresponsive hinverted hkeys "card"
  exact ⟨hresponsive, hinverted, hkeys, fun h => hmobile (hdark.mp h),
    fun h => hmobile (hreduced.mp h)⟩

end Style

end Cascade
