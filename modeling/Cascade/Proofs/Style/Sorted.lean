import Cascade.Proofs.Style.Tree
import Cascade.Style.Findings
import Mathlib.Data.List.Basic

/-!
# Sorted blocks and the tree

What sorting does to one style object, bucket by bucket, and with it the recursion of everything
that is computed from sorted blocks: rules, findings and whether anything is declared. Each is an
equation over `Members.children`, so that facts about compiled styles follow by
`Members.treeInduction`, and no proof behind this module opens a block or a bucket.
-/

namespace Cascade

/-! ## Buckets -/

namespace Buckets

variable {α : Type}

theorem malformed_addProperty (key : String) (value : Value) (b : Buckets α) :
    (b.addProperty key value).malformed =
      (if value.members?.isSome then [.propertyHoldsObject key] else []) ++ b.malformed := by
  cases value <;> rfl

theorem declarations_addProperty (key : String) (value : Value) (b : Buckets α) :
    (b.addProperty key value).declarations =
      (if value.members?.isSome then [] else [(key, value)]) ++ b.declarations := by
  cases value <;> rfl

@[simp] theorem nested_addProperty (key : String) (value : Value) (b : Buckets α) :
    (b.addProperty key value).nested = b.nested := by
  cases value <;> rfl

@[simp] theorem group_addProperty (key : String) (value : Value) (b : Buckets α) (rule : AtRule) :
    (b.addProperty key value).group rule = b.group rule := by
  cases value <;> rfl

theorem malformed_addNested (key : String) (found : Value.Kind) (inner : Option α)
    (b : Buckets α) :
    (b.addNested key found inner).malformed =
      (if inner.isSome then [] else [.nestedNotObject key found]) ++ b.malformed := by
  cases inner <;> rfl

@[simp] theorem declarations_addNested (key : String) (found : Value.Kind) (inner : Option α)
    (b : Buckets α) : (b.addNested key found inner).declarations = b.declarations := by
  cases inner <;> rfl

theorem nested_addNested (key : String) (found : Value.Kind) (inner : Option α) (b : Buckets α) :
    (b.addNested key found inner).nested = (inner.map (key, ·)).toList ++ b.nested := by
  cases inner <;> rfl

@[simp] theorem group_addNested (key : String) (found : Value.Kind) (inner : Option α)
    (b : Buckets α) (rule : AtRule) :
    (b.addNested key found inner).group rule = b.group rule := by
  cases inner <;> rfl

theorem malformed_addGroup (rule : AtRule) (found : Value.Kind)
    (inner : Option (List Cause × List (String × α))) (b : Buckets α) :
    (b.addGroup rule found inner).malformed =
      (match inner with
        | none => [.groupNotObject rule found]
        | some (causes, _) => causes) ++ b.malformed := by
  cases inner with
  | none => rfl
  | some inner => cases rule <;> rfl

@[simp] theorem declarations_addGroup (rule : AtRule) (found : Value.Kind)
    (inner : Option (List Cause × List (String × α))) (b : Buckets α) :
    (b.addGroup rule found inner).declarations = b.declarations := by
  cases inner with
  | none => rfl
  | some inner => cases rule <;> rfl

@[simp] theorem nested_addGroup (rule : AtRule) (found : Value.Kind)
    (inner : Option (List Cause × List (String × α))) (b : Buckets α) :
    (b.addGroup rule found inner).nested = b.nested := by
  cases inner with
  | none => rfl
  | some inner => cases rule <;> rfl

theorem group_addGroup (rule other : AtRule) (found : Value.Kind)
    (inner : Option (List Cause × List (String × α))) (b : Buckets α) :
    (b.addGroup rule found inner).group other =
      (if rule = other then inner.elim [] Prod.snd else []) ++ b.group other := by
  cases inner with
  | none => cases rule <;> cases other <;> rfl
  | some inner => cases rule <;> cases other <;> rfl

end Buckets

/-! ## Sorting one style object -/

namespace Buckets

variable {α β : Type}

theorem conditionCauses_eq (rule : AtRule) (group : Members) :
    conditionCauses rule group = group.flatMap fun (condition, value) =>
      if value.isNull || value.members?.isSome then []
      else [.conditionNotObject rule condition value.kind] := by
  induction group with
  | nil => rfl
  | cons entry rest ih =>
    obtain ⟨condition, value⟩ := entry
    rw [List.flatMap_cons, ← ih]
    cases value <;> rfl

theorem malformed_ofMembers (style : Members) :
    (ofMembers style).malformed = style.malformations := by
  induction style with
  | nil => rfl
  | cons entry rest ih =>
    obtain ⟨key, value⟩ := entry
    rw [Members.malformations, List.flatMap_cons, ← Members.malformations, ← ih, ofMembers]
    cases hkey : KeyKind.ofKey key with
    | property => cases value <;> simp [Members.entryMalformations, hkey, Value.isNull,
        malformed_addProperty, Value.members?]
    | nested => cases value <;> simp [Members.entryMalformations, hkey, Value.isNull,
        malformed_addNested, Value.members?]
    | group rule => cases value <;> simp [Members.entryMalformations, hkey, Value.isNull,
        malformed_addGroup, Value.members?, conditionCauses_eq]

theorem declarations_ofMembers (style : Members) :
    (ofMembers style).declarations =
      style.properties.filter fun (_, value) => value.members?.isNone := by
  induction style with
  | nil => rfl
  | cons entry rest ih =>
    obtain ⟨key, value⟩ := entry
    rw [Members.properties, Members.ofKind] at ih ⊢
    rw [ofMembers]
    cases hkey : KeyKind.ofKey key with
    | property => cases value <;> simp [hkey, Value.isNull, declarations_addProperty,
        Value.members?, ih]
    | nested => cases value <;> simp [hkey, Value.isNull, ih]
    | group rule => cases value <;> simp [hkey, Value.isNull, ih]

theorem nested_ofMembers (style : Members) :
    (ofMembers style).nested =
      Members.objects (style.ofKind .nested) := by
  induction style with
  | nil => rfl
  | cons entry rest ih =>
    obtain ⟨key, value⟩ := entry
    rw [Members.objects, Members.ofKind] at ih ⊢
    rw [ofMembers]
    cases hkey : KeyKind.ofKey key with
    | property => cases value <;> simp [hkey, Value.isNull, Value.members?, ih]
    | nested => cases value <;> simp [hkey, Value.isNull, nested_addNested, Value.members?, ih]
    | group rule => cases value <;> simp [hkey, Value.isNull, Value.members?, ih]

theorem group_ofMembers (style : Members) (rule : AtRule) :
    (ofMembers style).group rule =
      (Members.objects (style.ofKind (.group rule))).flatMap fun (_, group) => group.objects := by
  induction style with
  | nil => cases rule <;> rfl
  | cons entry rest ih =>
    obtain ⟨key, value⟩ := entry
    rw [Members.objects, Members.ofKind] at ih ⊢
    rw [ofMembers]
    cases hkey : KeyKind.ofKey key with
    | property => cases value <;> simp [hkey, Value.isNull, Value.members?, ih]
    | nested => cases value <;> simp [hkey, Value.isNull, Value.members?, ih]
    | group other =>
      by_cases hrule : other = rule <;> cases value <;>
        simp [hkey, hrule, Value.isNull, group_addGroup, Value.members?, ih, Members.objects]

@[simp] theorem malformed_map (f : α → β) (b : Buckets α) :
    (b.map f).malformed = b.malformed := rfl

@[simp] theorem declarations_map (f : α → β) (b : Buckets α) :
    (b.map f).declarations = b.declarations := rfl

@[simp] theorem nested_map (f : α → β) (b : Buckets α) :
    (b.map f).nested = b.nested.map fun (key, inner) => (key, f inner) := rfl

@[simp] theorem group_map (f : α → β) (b : Buckets α) (rule : AtRule) :
    (b.map f).group rule = (b.group rule).map fun (key, inner) => (key, f inner) := by
  cases rule <;> rfl

end Buckets

/-! ## Branches of sorted blocks -/

namespace Branch

/-- The selector behind a branch. -/
def selector (parent : String) : Branch → String
  | nested key => Selector.nest parent key
  | under _ _ => parent

/-- The rules of the inner object as they stand in the outer one's. -/
def enclose (rules : List Rule) : Branch → List Rule
  | nested _ => rules
  | under rule condition => Rule.ofGroup rule condition rules

/-- The notices of the branch itself. -/
def notices (inner : Block) : Branch → List Finding
  | nested _ => []
  | under rule condition => Block.conditionNotices rule condition inner

end Branch

theorem Members.flatMap_children {β : Type} (style : Members) (f : Branch × Members → List β) :
    style.children.flatMap f =
      (Buckets.ofMembers style).nested.flatMap (fun (key, inner) => f (.nested key, inner))
        ++ AtRule.all.flatMap fun rule => ((Buckets.ofMembers style).group rule).flatMap
          fun (condition, inner) => f (.under rule condition, inner) := by
  rw [children, List.flatMap_append, nestedChildren, Buckets.nested_ofMembers, List.flatMap_map,
    List.flatMap_assoc]
  congr 1
  refine List.flatMap_congr fun rule _ => ?_
  rw [conditionChildren, Buckets.group_ofMembers, List.flatMap_assoc, List.flatMap_assoc]
  exact List.flatMap_congr fun _ _ => by rw [List.flatMap_map]

namespace Block

theorem nestedRules_eq_flatMap (selector : String) (nested : List (String × Block)) :
    nestedRules selector nested =
      nested.flatMap fun (key, inner) => inner.rules (Selector.nest selector key) := by
  induction nested with
  | nil => rfl
  | cons entry rest ih => rw [nestedRules, ih, List.flatMap_cons]

theorem groupRules_eq_flatMap (rule : AtRule) (selector : String)
    (conditions : List (String × Block)) :
    groupRules rule selector conditions =
      conditions.flatMap fun (condition, inner) =>
        Rule.ofGroup rule condition (inner.rules selector) := by
  induction conditions with
  | nil => rfl
  | cons entry rest ih => rw [groupRules, ih, List.flatMap_cons]

/-- A block's rules, one kind of entry after the other. -/
theorem rules_eq (selector : String) (b : Block) :
    b.rules selector =
      Rule.ofDeclarations selector (b.entries.declarations.map Declaration.ofMember)
        ++ (b.entries.nested.flatMap
            (fun (key, inner) => inner.rules (Selector.nest selector key))
        ++ AtRule.all.flatMap fun rule => (b.entries.group rule).flatMap
          fun (condition, inner) => Rule.ofGroup rule condition (inner.rules selector)) := by
  obtain ⟨⟨malformed, declarations, nested, container, media, supports⟩⟩ := b
  simp [rules, nestedRules_eq_flatMap, groupRules_eq_flatMap, AtRule.all, Buckets.group]

/-- The rules of a child as they stand among those of its parent. -/
def childRules (selector : String) (child : Branch × Members) : List Rule :=
  child.1.enclose ((ofMembers child.2).rules (child.1.selector selector))

/-- The rules of a style object: one for its own properties, then those of its children. -/
theorem rules_ofMembers (selector : String) (style : Members) :
    (ofMembers style).rules selector =
      Rule.ofDeclarations selector
          ((Buckets.ofMembers style).declarations.map Declaration.ofMember)
        ++ style.children.flatMap (childRules selector) := by
  rw [rules_eq, entries_ofMembers, Members.flatMap_children]
  simp [List.flatMap_map, childRules, Branch.enclose, Branch.selector]

theorem nestedFindings_eq_flatMap (path : List String) (nested : List (String × Block)) :
    nestedFindings path nested =
      nested.flatMap fun (key, inner) => inner.findings (path ++ [key]) := by
  induction nested with
  | nil => rfl
  | cons entry rest ih => rw [nestedFindings, ih, List.flatMap_cons]

theorem groupFindings_eq_flatMap (rule : AtRule) (path : List String)
    (conditions : List (String × Block)) :
    groupFindings rule path conditions =
      conditions.flatMap fun (condition, inner) =>
        inner.findings (path ++ [rule.keyword, condition])
          ++ conditionNotices rule condition inner := by
  induction conditions with
  | nil => rfl
  | cons entry rest ih => rw [groupFindings, ih, List.flatMap_cons]

/-- A block's findings: its own faults, then those of its entries, one kind after the other. -/
theorem findings_eq (path : List String) (b : Block) :
    b.findings path =
      b.entries.malformed.map (fun cause => .fault ⟨cause, path⟩)
        ++ (b.entries.nested.flatMap (fun (key, inner) => inner.findings (path ++ [key]))
        ++ AtRule.all.flatMap fun rule => (b.entries.group rule).flatMap
          fun (condition, inner) => inner.findings (path ++ [rule.keyword, condition])
            ++ conditionNotices rule condition inner) := by
  obtain ⟨⟨malformed, declarations, nested, container, media, supports⟩⟩ := b
  simp [findings, nestedFindings_eq_flatMap, groupFindings_eq_flatMap, AtRule.all, Buckets.group]

/-- The findings of a style object: its own faults, then what is found in its children. -/
theorem findings_ofMembers (path : List String) (style : Members) :
    (ofMembers style).findings path =
      style.malformations.map (fun cause => .fault ⟨cause, path⟩)
        ++ style.children.flatMap fun (branch, inner) =>
          (ofMembers inner).findings (path ++ branch.keys)
            ++ branch.notices (ofMembers inner) := by
  rw [findings_eq, entries_ofMembers, Members.flatMap_children]
  simp [List.flatMap_map, Branch.keys, Branch.notices, Buckets.malformed_ofMembers]

end Block

/-! ## Well-formed and silent trees -/

theorem Members.not_object_of_mem_properties {style : Members}
    (h : style.malformations = []) {entry : String × Value} (hentry : entry ∈ style.properties) :
    entry.2.members? = none := by
  obtain ⟨key, value⟩ := entry
  obtain ⟨hmem, hkey⟩ := mem_ofKind.mp (List.mem_filter.mp hentry).1
  have hfine := List.flatMap_eq_nil_iff.mp h _ hmem
  cases value with
  | object inner => simp [entryMalformations, hkey] at hfine
  | _ => rfl

/-- Where nothing is malformed, exactly the properties are declared. -/
theorem Buckets.declarations_ofMembers_of_wellFormed {style : Members}
    (h : style.malformations = []) : (ofMembers style).declarations = style.properties := by
  rw [declarations_ofMembers, List.filter_eq_self]
  rintro ⟨key, value⟩ hentry
  have hvalue : value.members? = none := Members.not_object_of_mem_properties h hentry
  simp only [hvalue, Option.isNone_none]

@[simp] theorem Rule.ofDeclarations_eq_nil_iff {selector : String}
    {declarations : List Declaration} :
    ofDeclarations selector declarations = [] ↔ declarations = [] := by
  cases declarations <;> simp [ofDeclarations]

@[simp] theorem Branch.enclose_eq_nil_iff {branch : Branch} {rules : List Rule} :
    branch.enclose rules = [] ↔ rules = [] := by
  cases branch <;> cases rules <;> simp [enclose, Rule.ofGroup]

namespace Block

theorem rules_ofMembers_of_wellFormed {style : Members} (h : style.WellFormed)
    (selector : String) :
    (ofMembers style).rules selector =
      Rule.ofDeclarations selector (style.properties.map Declaration.ofMember)
        ++ style.children.flatMap (childRules selector) := by
  rw [rules_ofMembers,
    Buckets.declarations_ofMembers_of_wellFormed (Members.everywhere_iff.mp h).1]

/-- A well-formed style object has no rules exactly if it is silent. -/
theorem rules_eq_nil_iff_silent {style : Members} (h : style.WellFormed) (selector : String) :
    (ofMembers style).rules selector = [] ↔ style.Silent := by
  induction style using Members.treeInduction generalizing selector with
  | step style ih =>
    rw [rules_ofMembers_of_wellFormed h, Members.Silent, Members.everywhere_iff]
    simp only [List.append_eq_nil_iff, Rule.ofDeclarations_eq_nil_iff, List.map_eq_nil_iff,
      List.flatMap_eq_nil_iff, childRules, Branch.enclose_eq_nil_iff]
    refine and_congr Iff.rfl (forall₂_congr fun child hchild => ?_)
    exact ih child hchild ((Members.everywhere_iff.mp h).2 child hchild) _

theorem childRules_eq_nil_iff {child : Branch × Members} (h : child.2.WellFormed)
    (selector : String) : childRules selector child = [] ↔ child.2.Silent := by
  rw [childRules, Branch.enclose_eq_nil_iff, rules_eq_nil_iff_silent h]

end Block

end Cascade
