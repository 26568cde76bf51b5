import Cascade.Proofs.Style.Tree

/-!
# Entry by entry

The tree of a style object is put together from its entries: children, properties and
malformations of two lists of entries, one behind the other, are those of the first and then those
of the second. For a single entry of each kind they are told here outright, and with them when it
is well formed and when it declares nothing (`Members.Silent`).
-/

namespace Cascade

theorem AtRule.keyword_inj {rule other : AtRule} :
    rule.keyword = other.keyword ↔ rule = other := by
  cases rule <;> cases other <;> decide

namespace Members

/-! ## Entries side by side -/

section

variable (first second : Members)

theorem ofKind_append (kind : KeyKind) :
    ofKind kind (first ++ second) = first.ofKind kind ++ second.ofKind kind :=
  List.filter_append ..

theorem objects_append : objects (first ++ second) = first.objects ++ second.objects :=
  List.filterMap_append

theorem properties_append :
    properties (first ++ second) = first.properties ++ second.properties := by
  rw [properties, ofKind_append, List.filter_append, ← properties, ← properties]

theorem nestedChildren_append :
    nestedChildren (first ++ second) = first.nestedChildren ++ second.nestedChildren := by
  rw [nestedChildren, ofKind_append, objects_append, List.map_append, ← nestedChildren,
    ← nestedChildren]

theorem conditionChildren_append (rule : AtRule) :
    conditionChildren rule (first ++ second) =
      first.conditionChildren rule ++ second.conditionChildren rule := by
  rw [conditionChildren, ofKind_append, objects_append, List.flatMap_append, ← conditionChildren,
    ← conditionChildren]

end

/-- Each child stands in one of the entries. -/
theorem mem_children_iff_entry {style : Members} {child : Branch × Members} :
    child ∈ style.children ↔ ∃ entry ∈ style, child ∈ children [entry] := by
  obtain ⟨branch, inner⟩ := child
  constructor
  · intro h
    rcases mem_children.mp h with
      ⟨key, hbranch, hmem, hkey⟩ | ⟨rule, condition, group, hbranch, hmem, hinner⟩
    · exact ⟨_, hmem, mem_children.mpr (.inl ⟨key, hbranch, List.mem_cons_self, hkey⟩)⟩
    · exact ⟨_, hmem, mem_children.mpr
        (.inr ⟨rule, condition, group, hbranch, List.mem_cons_self, hinner⟩)⟩
  · rintro ⟨entry, hentry, h⟩
    have hsub : ∀ {found}, found ∈ [entry] → found ∈ style := fun hfound =>
      List.mem_singleton.mp hfound ▸ hentry
    rcases mem_children.mp h with
      ⟨key, hbranch, hmem, hkey⟩ | ⟨rule, condition, group, hbranch, hmem, hinner⟩
    · exact mem_children.mpr (.inl ⟨key, hbranch, hsub hmem, hkey⟩)
    · exact mem_children.mpr (.inr ⟨rule, condition, group, hbranch, hsub hmem, hinner⟩)

/-! ## One entry -/

section

variable {key : String} {value : Value} {inner group : Members}

theorem properties_of_ne (hkey : KeyKind.ofKey key ≠ .property) :
    properties [(key, value)] = [] := by
  simp [properties, ofKind, hkey]

theorem properties_property (hkey : KeyKind.ofKey key = .property)
    (hnull : value.isNull = false) :
    properties [(key, value)] = [(key, value)] := by
  simp [properties, ofKind, hkey, hnull]

theorem nestedChildren_of_ne (hkey : KeyKind.ofKey key ≠ .nested) :
    nestedChildren [(key, value)] = [] := by
  simp [nestedChildren, ofKind, objects, hkey]

theorem nestedChildren_nested (hkey : KeyKind.ofKey key = .nested) :
    nestedChildren [(key, .object inner)] = [(.nested key, inner)] := by
  simp [nestedChildren, ofKind, objects, hkey, Value.members?]

theorem conditionChildren_of_ne {rule : AtRule} (hkey : KeyKind.ofKey key ≠ .group rule) :
    conditionChildren rule [(key, value)] = [] := by
  simp [conditionChildren, ofKind, objects, hkey]

theorem conditionChildren_keyword (rule : AtRule) :
    conditionChildren rule [(rule.keyword, .object group)] =
      group.objects.map fun (condition, inner) => (.under rule condition, inner) := by
  simp [conditionChildren, ofKind, objects, KeyKind.ofKey_keyword, Value.members?]

theorem conditionChildren_keyword_of_ne {rule other : AtRule} (h : other ≠ rule) :
    conditionChildren other [(rule.keyword, value)] = [] :=
  conditionChildren_of_ne fun hgroup =>
    h (AtRule.keyword_inj.mp (KeyKind.ofKey_eq_group_iff.mp hgroup)).symm

theorem children_null (key : String) : children [(key, .null)] = [] := by
  refine List.eq_nil_iff_forall_not_mem.mpr ?_
  rintro ⟨branch, found⟩ hchild
  rcases mem_children.mp hchild with ⟨_, -, hmem, -⟩ | ⟨_, _, _, -, hmem, -⟩ <;> simp at hmem

theorem children_property (hkey : KeyKind.ofKey key = .property) :
    children [(key, value)] = [] := by
  have hconditions : ∀ rule, conditionChildren rule [(key, value)] = [] :=
    fun rule => conditionChildren_of_ne (by simp [hkey])
  simp [children, nestedChildren_of_ne, hkey, hconditions]

theorem children_nested (hkey : KeyKind.ofKey key = .nested) :
    children [(key, .object inner)] = [(.nested key, inner)] := by
  have hconditions : ∀ rule, conditionChildren rule [(key, .object inner)] = [] :=
    fun rule => conditionChildren_of_ne (by simp [hkey])
  simp [children, nestedChildren_nested hkey, hconditions]

theorem children_group (rule : AtRule) :
    children [(rule.keyword, .object group)] =
      group.objects.map fun (condition, inner) => (.under rule condition, inner) := by
  rw [children, nestedChildren_of_ne (by simp [KeyKind.ofKey_keyword]), List.nil_append]
  cases rule <;> simp [AtRule.all, conditionChildren_keyword, conditionChildren_keyword_of_ne]

end

/-! ## Silent entries -/

section

variable {key : String} {inner group : Members} {rule : AtRule}

theorem silent_null (key : String) : Silent [(key, .null)] := by
  refine everywhere_iff.mpr ⟨?_, by simp [children_null]⟩
  by_cases hkey : KeyKind.ofKey key = .property <;> simp [properties, ofKind, hkey, Value.isNull]

theorem silent_nested (hkey : KeyKind.ofKey key = .nested) (hinner : inner.Silent) :
    Silent [(key, .object inner)] := by
  refine everywhere_iff.mpr ⟨properties_of_ne (by simp [hkey]), ?_⟩
  rw [children_nested hkey]
  exact List.forall_mem_singleton.mpr hinner

theorem silent_group
    (hgroup : ∀ condition inner, (condition, .object inner) ∈ group → Silent inner) :
    Silent [(rule.keyword, .object group)] := by
  refine everywhere_iff.mpr ⟨properties_of_ne (by simp [KeyKind.ofKey_keyword]), ?_⟩
  rw [children_group, List.forall_mem_map]
  rintro ⟨condition, inner⟩ hinner
  exact hgroup condition inner (mem_objects.mp hinner)

end

/-! ## Well-formed entries -/

/-- A style object is well formed exactly if each of its entries is, on its own. -/
theorem wellFormed_iff_forall_entry {style : Members} :
    style.WellFormed ↔ ∀ entry ∈ style, WellFormed [entry] := by
  have hentry : ∀ entry, WellFormed [entry] ↔
      entryMalformations entry = [] ∧ ∀ child ∈ children [entry], child.2.WellFormed := by
    intro entry
    rw [WellFormed, everywhere_iff, malformations, List.flatMap_singleton]
  simp only [hentry]
  rw [WellFormed, everywhere_iff, malformations, List.flatMap_eq_nil_iff]
  constructor
  · rintro ⟨hfine, hchildren⟩ entry hmem
    exact ⟨hfine entry hmem, fun child hchild =>
      hchildren child (mem_children_iff_entry.mpr ⟨entry, hmem, hchild⟩)⟩
  · intro h
    refine ⟨fun entry hmem => (h entry hmem).1, fun child hchild => ?_⟩
    obtain ⟨entry, hmem, hchild⟩ := mem_children_iff_entry.mp hchild
    exact (h entry hmem).2 child hchild

theorem WellFormed.of_subset {style part : Members} (h : style.WellFormed)
    (hsub : ∀ entry ∈ part, entry ∈ style) : part.WellFormed :=
  wellFormed_iff_forall_entry.mpr fun entry hentry =>
    wellFormed_iff_forall_entry.mp h entry (hsub entry hentry)

theorem wellFormed_nil : WellFormed [] :=
  wellFormed_iff_forall_entry.mpr (List.forall_mem_nil _)

theorem wellFormed_append {first second : Members} :
    WellFormed (first ++ second) ↔ first.WellFormed ∧ second.WellFormed := by
  rw [wellFormed_iff_forall_entry, List.forall_mem_append, ← wellFormed_iff_forall_entry,
    ← wellFormed_iff_forall_entry]

section

variable {key : String} {value : Value} {inner group : Members} {rule : AtRule}

theorem wellFormed_null (key : String) : WellFormed [(key, .null)] :=
  everywhere_iff.mpr ⟨rfl, by simp [children_null]⟩

theorem wellFormed_property_iff (hkey : KeyKind.ofKey key = .property) :
    WellFormed [(key, value)] ↔ value.members? = none := by
  rw [WellFormed, everywhere_iff, malformations, List.flatMap_singleton, children_property hkey]
  cases value <;> simp [entryMalformations, hkey, Value.members?]

theorem wellFormed_nested_iff (hkey : KeyKind.ofKey key = .nested) :
    WellFormed [(key, .object inner)] ↔ inner.WellFormed := by
  rw [WellFormed, everywhere_iff, malformations, List.flatMap_singleton, children_nested hkey,
    List.forall_mem_singleton]
  simp [entryMalformations, hkey]

/-- What may stand under a condition. -/
def ConditionWellFormed (value : Value) : Prop :=
  value = .null ∨ ∃ inner : Members, value = .object inner ∧ inner.WellFormed

theorem wellFormed_group_iff :
    WellFormed [(rule.keyword, .object group)] ↔
      ∀ entry ∈ group, ConditionWellFormed entry.2 := by
  rw [WellFormed, everywhere_iff, malformations, List.flatMap_singleton, children_group,
    List.forall_mem_map]
  simp only [entryMalformations, KeyKind.ofKey_keyword, List.flatMap_eq_nil_iff]
  constructor
  · rintro ⟨hfine, hinner⟩ ⟨condition, value⟩ hentry
    have hvalue := hfine _ hentry
    cases value with
    | null => exact .inl rfl
    | object inner => exact .inr ⟨inner, rfl, hinner (condition, inner) (mem_objects.mpr hentry)⟩
    | _ => simp [Value.isNull, Value.members?] at hvalue
  · intro h
    refine ⟨?_, ?_⟩
    · rintro ⟨condition, value⟩ hentry
      rcases h _ hentry with hnull | ⟨inner, hobject, -⟩
      · obtain rfl : value = .null := hnull
        rfl
      · obtain rfl : value = .object inner := hobject
        rfl
    · rintro ⟨condition, found⟩ hfound
      rcases h _ (mem_objects.mp hfound) with hnull | ⟨inner, hobject, hwell⟩
      · cases hnull
      · obtain rfl : found = inner := Value.object.inj hobject
        exact hwell

end

end Members

end Cascade
