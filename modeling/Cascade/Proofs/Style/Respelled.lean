import Cascade.Proofs.Name.CamelCase
import Cascade.Proofs.Style.Interchange
import Mathlib.Data.List.Nodup

/-!
# Resolved spellings

What a style object says can be written as it will be printed: property names in kebab case,
values as their text, media conditions as their queries. Each of the three is resolved once and
for all, so resolving it again changes nothing (`Name.Regular.kebab_kebab`, `Value.declared_str`,
`Query.resolve_resolve`), and whether a number is a length does not depend on the spelling of its
property (`Value.declared_kebab`).

`Members.Respelling` is one such change, `Members.Respelled` any number of them at any nodes.
`compile_respelled` says that the rules stay the same, and that what was an object, with no key
twice, is one afterwards.
-/

namespace Cascade

/-! ## Resolving again -/

namespace Query

theorem resolve_of_isParenthesized {condition : String} (h : isParenthesized condition = true) :
    resolve condition = condition := by
  have hall : ∀ entry ∈ breakpoints, isParenthesized entry.1 = false := by decide
  rw [resolve]
  split
  · rename_i query hquery
    rw [hall _ (mem_breakpoints hquery)] at h
    cases h
  · rw [if_pos h]

/-- A query stands for itself. -/
theorem resolve_resolve (condition : String) :
    resolve (resolve condition) = resolve condition := by
  have hall : ∀ entry ∈ breakpoints, resolve entry.2 = entry.2 := by decide
  rw [resolve.eq_def condition]
  split
  · rename_i query hquery
    exact hall _ (mem_breakpoints hquery)
  · split
    · rename_i h
      exact resolve_of_isParenthesized h
    · refine resolve_of_isParenthesized ?_
      rw [isParenthesized, String.toList_append, String.toList_append, List.getLast?_append]
      simp

end Query

theorem AtRule.query_resolve (condition : String) :
    AtRule.media.query (Query.resolve condition) = AtRule.media.query condition :=
  Query.resolve_resolve condition

theorem mem_unitlessProperties {name : String} :
    name ∈ unitlessProperties ↔
      name ∈ unitlessNames ∨ ∃ listed ∈ unitlessNames, Name.kebab listed = name := by
  rw [unitlessProperties, List.mem_eraseDups, List.mem_append, List.mem_map]

/-- The table holds a listed name under both spellings, and no other name under either. -/
theorem mem_unitlessProperties_iff {name : String} (h : Name.CamelCase name) :
    (name ∈ unitlessProperties ↔ name ∈ unitlessNames)
      ∧ (Name.kebab name ∈ unitlessProperties ↔ name ∈ unitlessNames) := by
  have hlisted : ∀ listed ∈ unitlessNames, Name.CamelCase listed := by decide
  have hinj :
      ∀ {a b}, Name.CamelCase a → Name.CamelCase b → Name.kebab a = Name.kebab b → a = b :=
    fun ha hb => (Name.Regular.kebab_inj (.inl ha) (.inl hb)).mp
  rw [mem_unitlessProperties, mem_unitlessProperties]
  constructor
  · refine ⟨?_, .inl⟩
    rintro (hmem | ⟨listed, hmem, rfl⟩)
    · exact hmem
    · rwa [hinj h (hlisted listed hmem) (hlisted listed hmem).kebab_kebab]
  · refine ⟨?_, fun hmem => .inr ⟨name, hmem, rfl⟩⟩
    rintro (hmem | ⟨listed, hmem, heq⟩)
    · rwa [← hinj (hlisted _ hmem) h h.kebab_kebab]
    · rwa [← hinj (hlisted listed hmem) h heq]

namespace Value

theorem declared_str (property s : String) : (Value.str s).declared property = s := rfl

/-- A number is a length under both spellings of a property or under none. -/
theorem declared_kebab {name : String} (h : Name.Regular name) (value : Value) :
    value.declared (Name.kebab name) = value.declared name := by
  have hcontains : unitlessProperties.contains (Name.kebab name) =
      unitlessProperties.contains name := by
    rcases h with h | h
    · obtain ⟨hname, hkebab⟩ := mem_unitlessProperties_iff h
      rw [Bool.eq_iff_iff, List.contains_iff_mem, List.contains_iff_mem, hkebab, hname]
    · rw [Name.kebab_of_isCustom h]
  cases value with
  | bool b => rfl
  | _ => simp only [declared, hcontains]

end Value

namespace Name

theorem ofKey_eq_property {key : String} {c : Char} {rest : List Char}
    (hkey : key.toList = c :: rest) (hc : c = '-' ∨ c.isLower = true) :
    KeyKind.ofKey key = .property := by
  have hmarks : c ≠ '&' ∧ c ≠ ' ' ∧ c ≠ '@' := by
    refine ⟨?_, ?_, ?_⟩ <;> rintro rfl <;> revert hc <;> decide
  have hkeyword : AtRule.ofKeyword? key = none := by
    rw [Option.eq_none_iff_forall_not_mem]
    intro rule hrule
    rw [← AtRule.keyword_of_ofKeyword? hrule] at hkey
    cases rule <;> exact hmarks.2.2 (List.cons.inj hkey).1.symm
  rw [KeyKind.ofKey, hkey, hkeyword]
  split
  · rename_i heq
    exact absurd (List.cons.inj heq).1 hmarks.1
  · rename_i heq
    exact absurd (List.cons.inj heq).1 hmarks.2.1
  · rfl

/-- A regular name is that of a property, and its kebab form too. -/
theorem Regular.ofKey_eq {name : String} (h : Regular name) :
    KeyKind.ofKey name = .property ∧ KeyKind.ofKey (kebab name) = .property := by
  rcases h with h | h
  · obtain ⟨c, rest, hname, hc, -, -⟩ := h.exists_cons
    refine ⟨ofKey_eq_property hname (.inr hc), ?_⟩
    obtain ⟨c, rest, hc, heq | heq⟩ := h.toList_kebab_eq_or
    · exact ofKey_eq_property heq (.inr hc)
    · exact ofKey_eq_property heq (.inl rfl)
  · obtain ⟨rest, hname⟩ := List.isPrefixOf_iff_prefix.mp h
    rw [kebab_of_isCustom h, and_self]
    exact ofKey_eq_property hname.symm (.inl rfl)

end Name

namespace Members

/-! ## Respellings -/

/-- One of the three ways in which an entry of a node may be resolved. -/
inductive Respelling : Members → Members → Prop
  | name {key : String} (value : Value) (hkey : Name.Regular key) :
      Respelling [(key, value)] [(Name.kebab key, value)]
  | value {key : String} {value : Value} (hkey : KeyKind.ofKey key = .property)
      (hvalue : value ≠ .null) : Respelling [(key, value)] [(key, .str (value.declared key))]
  | query (condition : String) (value : Value) (earlier later : Members) :
      Respelling
        [(AtRule.media.keyword, .object (earlier ++ [(condition, value)] ++ later))]
        [(AtRule.media.keyword, .object (earlier ++ [(Query.resolve condition, value)] ++ later))]

/-- Any number of respellings at any depth of a style object. -/
abbrev Respelled : Members → Members → Prop :=
  Relation.ReflTransGen (Somewhere Respelling)

theorem rulesUnder_resolve (selector condition : String) (value : Value) :
    rulesUnder .media selector [(Query.resolve condition, value)] =
      rulesUnder .media selector [(condition, value)] := by
  cases value with
  | object inner =>
    rw [rulesUnder_object, rulesUnder_object, Rule.ofGroup, Rule.ofGroup, AtRule.query_resolve]
  | _ => rfl

theorem harmless_respelling : Harmless Respelling := by
  intro part other h hwell
  cases h with
  | @name key value hkey =>
    obtain ⟨hkind, hkind'⟩ := hkey.ofKey_eq
    have hother := (wellFormed_property_iff hkind').mpr ((wellFormed_property_iff hkind).mp hwell)
    refine ⟨hother, ?_⟩
    cases hnull : value.isNull with
    | true =>
      obtain rfl : value = .null := by cases value <;> simp_all [Value.isNull]
      exact (Interchangeable.of_silent hwell (silent_null key)).trans
        (Interchangeable.of_silent hother (silent_null _)).symm
    | false =>
      refine .property hkind hkind' hnull hnull ?_
      rw [Declaration.ofMember, Declaration.ofMember, hkey.kebab_kebab, Value.declared_kebab hkey]
  | @value key value hkey hvalue =>
    refine ⟨(wellFormed_property_iff hkey).mpr rfl, .property hkey hkey ?_ rfl ?_⟩
    · cases value <;> simp_all [Value.isNull]
    · rw [Declaration.ofMember, Declaration.ofMember, Value.declared_str]
  | query condition value earlier later =>
    refine ⟨?_, .groupEntry fun selector => ?_⟩
    · rw [wellFormed_group_iff] at hwell ⊢
      simpa only [List.forall_mem_append, List.forall_mem_singleton] using hwell
    · simp only [rulesUnder_append, rulesUnder_resolve]

/-! ## Keys stay apart -/

/-- All property names of a node are in camel case, or keep their spelling. -/
def NamesRegular (node : Members) : Prop :=
  ∀ entry ∈ node, KeyKind.ofKey entry.1 = .property → Name.Regular entry.1

/-- No two media conditions of a node stand for one query. -/
def QueriesOnce (node : Members) : Prop :=
  ∀ group : Members, (AtRule.media.keyword, .object group) ∈ node →
    ((group.map Prod.fst).map Query.resolve).Nodup

/-- A key as it is spelled in the end. -/
def spelling (key : String) : String :=
  if KeyKind.ofKey key = .property then Name.kebab key else key

/-- The keys of a node stay different when they are all resolved. No respelling changes this,
since it does not change what a key is resolved to. -/
structure Apart (node : Members) : Prop where
  entries : ((node.map Prod.fst).map spelling).Nodup
  conditions : ∀ (rule : AtRule) (group : Members), (rule.keyword, .object group) ∈ node →
    ((group.map Prod.fst).map rule.query).Nodup

theorem spelling_inj {key other : String}
    (hkey : KeyKind.ofKey key = .property → Name.Regular key)
    (hother : KeyKind.ofKey other = .property → Name.Regular other)
    (h : spelling key = spelling other) : key = other := by
  rw [spelling, spelling] at h
  split at h <;> split at h
  · rename_i hp hp'
    exact ((hkey hp).kebab_inj (hother hp')).mp h
  · rename_i hp hp'
    rw [← h] at hp'
    exact absurd (hkey hp).ofKey_eq.2 hp'
  · rename_i hp hp'
    rw [h] at hp
    exact absurd (hother hp').ofKey_eq.2 hp
  · exact h

theorem spelling_kebab {key : String} (hkey : Name.Regular key) :
    spelling (Name.kebab key) = spelling key := by
  obtain ⟨hkind, hkind'⟩ := hkey.ofKey_eq
  rw [spelling, spelling, if_pos hkind, if_pos hkind', hkey.kebab_kebab]

theorem Apart.of_keysOnce {node : Members} (hkeys : node.KeysOnce) (hnames : node.NamesRegular)
    (hqueries : node.QueriesOnce) : node.Apart where
  entries := by
    refine hkeys.entries.map_on fun key hkey other hother => ?_
    obtain ⟨entry, hentry, rfl⟩ := List.mem_map.mp hkey
    obtain ⟨entry', hentry', rfl⟩ := List.mem_map.mp hother
    exact spelling_inj (hnames entry hentry) (hnames entry' hentry')
  conditions rule group hgroup := by
    cases rule with
    | media => exact hqueries group hgroup
    | container => exact (List.map_id (group.map Prod.fst)).symm ▸ hkeys.conditions _ group hgroup
    | supports => exact (List.map_id (group.map Prod.fst)).symm ▸ hkeys.conditions _ group hgroup

theorem Apart.keysOnce {node : Members} (h : node.Apart) : node.KeysOnce :=
  ⟨h.entries.of_map, fun rule group hgroup => (h.conditions rule group hgroup).of_map⟩

/-- What `Apart` asks of an entry and the objects behind it. -/
def EntryApart (entry : String × Value) : Prop :=
  (∀ (rule : AtRule) (group : Members), entry = (rule.keyword, .object group) →
    ((group.map Prod.fst).map rule.query).Nodup)
  ∧ ∀ child ∈ children [entry], Everywhere Apart child.2

theorem everywhere_apart_iff {style : Members} :
    Everywhere Apart style ↔
      ((style.map Prod.fst).map spelling).Nodup ∧ ∀ entry ∈ style, EntryApart entry := by
  rw [everywhere_iff]
  constructor
  · rintro ⟨hroot, hchildren⟩
    refine ⟨hroot.entries, fun entry hentry => ⟨?_, fun child hchild => ?_⟩⟩
    · rintro rule group rfl
      exact hroot.conditions rule group hentry
    · exact hchildren child (mem_children_iff_entry.mpr ⟨entry, hentry, hchild⟩)
  · rintro ⟨hentries, h⟩
    refine ⟨⟨hentries, fun rule group hgroup => (h _ hgroup).1 rule group rfl⟩, ?_⟩
    intro child hchild
    obtain ⟨entry, hentry, hchild⟩ := mem_children_iff_entry.mp hchild
    exact (h entry hentry).2 child hchild

section

variable {key : String} {value : Value} {inner group : Members} {rule : AtRule}

/-- Only a group has conditions of its own. -/
theorem entryApart_iff_of_ne (hkey : ∀ rule, KeyKind.ofKey key ≠ .group rule) :
    EntryApart (key, value) ↔ ∀ child ∈ children [(key, value)], Everywhere Apart child.2 := by
  rw [EntryApart, and_iff_right]
  intro rule group heq
  obtain ⟨rfl, -⟩ := Prod.mk.injEq .. |>.mp heq
  exact absurd (KeyKind.ofKey_keyword rule) (hkey rule)

theorem entryApart_property (hkey : KeyKind.ofKey key = .property) : EntryApart (key, value) :=
  (entryApart_iff_of_ne (by simp [hkey])).mpr (by simp [children_property hkey])

theorem entryApart_nested_iff (hkey : KeyKind.ofKey key = .nested) :
    EntryApart (key, .object inner) ↔ Everywhere Apart inner := by
  rw [entryApart_iff_of_ne (by simp [hkey]), children_nested hkey, List.forall_mem_singleton]

theorem entryApart_group_iff :
    EntryApart (rule.keyword, .object group) ↔
      ((group.map Prod.fst).map rule.query).Nodup
        ∧ ∀ entry ∈ group, ∀ inner, entry.2 = .object inner → Everywhere Apart inner := by
  rw [EntryApart, children_group, List.forall_mem_map]
  refine and_congr ⟨fun h => h rule group rfl, ?_⟩ ⟨?_, ?_⟩
  · intro h other found heq
    obtain ⟨hkeyword, hobject⟩ := Prod.mk.injEq .. |>.mp heq
    obtain rfl := AtRule.keyword_inj.mp hkeyword
    obtain rfl := Value.object.inj hobject
    exact h
  · rintro h ⟨condition, value⟩ hentry inner rfl
    exact h (condition, inner) (mem_objects.mpr hentry)
  · rintro h ⟨condition, inner⟩ hinner
    exact h _ (mem_objects.mp hinner) inner rfl

end

/-- A respelling leaves the resolved keys of its node alone. -/
theorem Respelling.apart {part other : Members} (h : Respelling part other) :
    (other.map Prod.fst).map spelling = (part.map Prod.fst).map spelling
      ∧ ((∀ entry ∈ part, EntryApart entry) → ∀ entry ∈ other, EntryApart entry) := by
  cases h with
  | name value hkey =>
    refine ⟨by simp [spelling_kebab hkey], fun _ => ?_⟩
    exact List.forall_mem_singleton.mpr (entryApart_property hkey.ofKey_eq.2)
  | value hkey hvalue =>
    exact ⟨rfl, fun _ => List.forall_mem_singleton.mpr (entryApart_property hkey)⟩
  | query condition value earlier later =>
    refine ⟨rfl, ?_⟩
    rw [List.forall_mem_singleton, List.forall_mem_singleton, entryApart_group_iff,
      entryApart_group_iff]
    simp only [List.map_append, List.map_cons, AtRule.query_resolve, List.forall_mem_append,
      List.forall_mem_singleton]
    exact id

/-- A change of entries that leaves their resolved keys alone and keeps the entries apart. -/
theorem everywhere_apart_of_entries {style other : Members}
    (hkeys : (other.map Prod.fst).map spelling = (style.map Prod.fst).map spelling)
    (h : (∀ entry ∈ style, EntryApart entry) → ∀ entry ∈ other, EntryApart entry) :
    Everywhere Apart style → Everywhere Apart other := by
  rw [everywhere_apart_iff, everywhere_apart_iff, hkeys]
  exact And.imp_right h

theorem Somewhere.apart {style other : Members} (h : Somewhere Respelling style other) :
    Everywhere Apart style → Everywhere Apart other := by
  induction h with
  | here before after h =>
    obtain ⟨hkeys, hpart⟩ := h.apart
    refine everywhere_apart_of_entries (by simp only [List.map_append, hkeys]) ?_
    simp only [List.forall_mem_append]
    exact And.imp_left (And.imp_right hpart)
  | nested before after hkey _ ih =>
    refine everywhere_apart_of_entries (by simp only [List.map_append, List.map_cons]) ?_
    simp only [List.forall_mem_append, List.forall_mem_singleton, entryApart_nested_iff hkey]
    exact And.imp_left (And.imp_right ih)
  | under before after earlier later _ ih =>
    refine everywhere_apart_of_entries (by simp only [List.map_append, List.map_cons]) ?_
    simp only [List.forall_mem_append, List.forall_mem_singleton, entryApart_group_iff,
      List.map_append, List.map_cons, List.map_nil, Value.object.injEq, forall_eq']
    exact And.imp_left (And.imp_right (And.imp_right (And.imp_left (And.imp_right ih))))

theorem Respelled.apart {style other : Members} (h : style.Respelled other)
    (hapart : Everywhere Apart style) : Everywhere Apart other := by
  induction h with
  | refl => exact hapart
  | tail _ hstep ih => exact hstep.apart ih

/-- Resolving spellings leaves no key twice, if different media conditions are different queries. -/
theorem Respelled.keysOnce {style other : Members} (h : style.Respelled other)
    (hkeys : Everywhere KeysOnce style) (hnames : Everywhere NamesRegular style)
    (hqueries : Everywhere QueriesOnce style) : Everywhere KeysOnce other := by
  have hapart : Everywhere Apart style := fun path node hreach =>
    .of_keysOnce (hkeys path node hreach) (hnames path node hreach) (hqueries path node hreach)
  exact fun path node hreach => (h.apart hapart path node hreach).keysOnce

end Members

namespace Style

/-- **A style object may be written as it will be printed.** Property names in camel case may be
replaced by their kebab forms, values by their texts and media conditions by their queries, at any
nodes of a well-formed style object: it compiles to the same rules. If all its property names are
regular, no two keys of a node fall together, unless two media conditions are the same query.
Kebab forms are names of properties again, different ones for different names, and a number has
its unit under both spellings or under none. -/
theorem compile_respelled {style other : Members} (hwell : style.WellFormed)
    (h : style.Respelled other) (className : String) :
    (∃ rules, (compile className style).outcome = .ok rules
      ∧ (compile className other).outcome = .ok rules)
    ∧ (Members.Everywhere Members.NamesRegular style → Members.Everywhere Members.KeysOnce style →
        Members.Everywhere Members.QueriesOnce style → Members.Everywhere Members.KeysOnce other)
    ∧ ∀ name, Name.Regular name →
        KeyKind.ofKey (Name.kebab name) = KeyKind.ofKey name
        ∧ (∀ name', Name.Regular name' → Name.kebab name = Name.kebab name' → name = name')
        ∧ ∀ value : Value, value.declared (Name.kebab name) = value.declared name := by
  refine ⟨compile_outcome_of_changes Members.harmless_respelling h hwell className,
    fun hnames hkeys hqueries => h.keysOnce hkeys hnames hqueries, fun name hname => ⟨?_, ?_, ?_⟩⟩
  · obtain ⟨hkind, hkind'⟩ := hname.ofKey_eq
    rw [hkind, hkind']
  · exact fun name' hname' => (hname.kebab_inj hname').mp
  · exact Value.declared_kebab hname

/-- A layer above others, and its padding in the dark. -/
def raised : Members :=
  [("zIndex", .int 3), ("@media", .object [("dark", .object [("padding", .int 8)])])]

def raisedResolved : Members :=
  [("z-index", .str "3"),
   ("@media", .object [("(prefers-color-scheme: dark)", .object [("padding", .str "8px")])])]

theorem compile_respelled_raised :
    raised.WellFormed ∧ raised.Respelled raisedResolved
      ∧ ∃ rules, (compile "card" raised).outcome = .ok rules
        ∧ (compile "card" raisedResolved).outcome = .ok rules := by
  have hwell : raised.WellFormed :=
    wellFormed_of_compile_outcome (show (compile "card" raised).outcome = .ok _ from rfl)
  have hkebab : Name.kebab "zIndex" = "z-index" := by decide +kernel
  have hplain : (Value.int 3).declared "zIndex" = "3" := by decide +kernel
  have hlength : (Value.int 8).declared "padding" = "8px" := by decide +kernel
  have hvalue : Members.Respelling [("zIndex", .int 3)] [("zIndex", .str "3")] := by
    rw [← hplain]
    exact .value (by decide) (by simp)
  have hname : Members.Respelling [("zIndex", .str "3")] [("z-index", .str "3")] := by
    rw [← hkebab]
    exact .name (.str "3") (.inl (by decide))
  have hinner : Members.Respelling [("padding", .int 8)] [("padding", .str "8px")] := by
    rw [← hlength]
    exact .value (by decide) (by simp)
  have hsteps : raised.Respelled raisedResolved := by
    refine .head (.here [] raised.tail hvalue) ?_
    refine .head (.here [] raised.tail hname) ?_
    refine .head (@Members.Somewhere.under _ .media "dark" _ _ [("z-index", .str "3")] [] [] []
      (.here [] [] hinner)) ?_
    exact .single (.here [("z-index", .str "3")] []
      (Members.Respelling.query "dark" (.object [("padding", .str "8px")]) [] []))
  obtain ⟨hrules, -, -⟩ := compile_respelled hwell hsteps "card"
  exact ⟨hwell, hsteps, hrules⟩

end Style

end Cascade
