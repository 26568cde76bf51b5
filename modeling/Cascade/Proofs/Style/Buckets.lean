import Cascade.Proofs.Style.Entry
import Cascade.Proofs.Style.Sorted
import Mathlib.Data.List.Nodup
import Mathlib.Data.Prod.Basic

/-!
# Nothing is lost between the buckets

A style object whose entries are fine is sorted into five buckets. What belongs into each is told
from the object alone (`Members.part`): the entries of one kind, or the conditions of a group that
is looked up by its keyword. Taken together the buckets hold what the object lists, piece by piece
and each piece once.

Sorting can be turned back: the object that the buckets are written out to is sorted into the same
buckets again (`Buckets.Tidy.partition_rebuild`). That needs no more than that each entry is of
the kind of its bucket and that no key occurs twice.
-/

namespace Cascade

namespace Members

/-- The members that are not null. -/
def given (members : Members) : Members :=
  members.filter fun (_, value) => ! value.isNull

/-- What belongs into the bucket for one kind of key, in the order in which it is listed. -/
def part (style : Members) : KeyKind → Members
  | .group rule =>
    match style.get? rule.keyword with
    | some (.object group) => given group
    | _ => []
  | kind => (style.ofKind kind).given

/-- What an entry brings along to be sorted: a group its conditions, and any other entry itself. -/
def entryPieces : String × Value → List (KeyKind × String × Value)
  | (key, value) =>
    match KeyKind.ofKey key with
    | .group rule => (given (value.members?.getD [])).map (.group rule, ·)
    | kind => (given [(key, value)]).map (kind, ·)

/-- What there is to sort, in the order in which it is listed. -/
def pieces (style : Members) : List (KeyKind × String × Value) :=
  style.flatMap entryPieces

end Members

namespace Buckets

/-- The bucket for one kind of key, with the objects in it as values. -/
def bucket (b : Buckets Members) : KeyKind → Members
  | .property => b.declarations
  | .nested => b.nested.map fun (key, inner) => (key, .object inner)
  | .group rule => (b.group rule).map fun (condition, inner) => (condition, .object inner)

/-- What the buckets hold, one bucket after the other. -/
def pieces (b : Buckets Members) : List (KeyKind × String × Value) :=
  KeyKind.all.flatMap fun kind => (b.bucket kind).map (kind, ·)

/-- The groups that the buckets are written out to, none for an empty bucket. -/
def groupEntries (b : Buckets Members) : Members :=
  (AtRule.all.filter fun rule => ! (b.group rule).isEmpty).map fun rule =>
    (rule.keyword, .object (Members.ofPairs (b.bucket (.group rule))))

/-- The style object that the buckets are written out to. -/
def rebuild (b : Buckets Members) : Members :=
  Members.ofPairs (b.bucket .property ++ b.bucket .nested ++ b.groupEntries)

end Buckets

theorem partition_ok_iff {style : Members} {path : List String} {b : Buckets Members} :
    partition style path = .ok b ↔ style.malformations = [] ∧ b = Buckets.ofMembers style := by
  rw [partition, ← Buckets.malformed_ofMembers]
  cases h : (Buckets.ofMembers style).malformed with
  | nil => simp [eq_comm]
  | cons cause rest => simp

/-! ## What is in the buckets -/

namespace Members

/-- Whether a value is null or an object. -/
def NullOrObject (value : Value) : Prop :=
  value = .null ∨ ∃ inner, value = .object inner

/-- Where each member is null or an object, the objects are the members that are not null. -/
theorem map_objects_eq_given {members : Members} (h : ∀ entry ∈ members, NullOrObject entry.2) :
    (members.objects.map fun (key, inner) => (key, Value.object inner)) = members.given := by
  induction members with
  | nil => rfl
  | cons entry rest ih =>
    obtain ⟨key, value⟩ := entry
    obtain ⟨hvalue, hrest⟩ := List.forall_mem_cons.mp h
    rw [objects, given] at ih ⊢
    rcases hvalue with hnull | ⟨inner, hobject⟩
    · obtain rfl : value = .null := hnull
      simpa [Value.isNull, Value.members?] using ih hrest
    · obtain rfl : value = .object inner := hobject
      simpa [Value.isNull, Value.members?] using ih hrest

section

variable {style : Members} {rule : AtRule}

theorem nullOrObject_of_nested (h : style.malformations = []) {entry : String × Value}
    (hentry : entry ∈ style.ofKind .nested) : NullOrObject entry.2 := by
  obtain ⟨key, value⟩ := entry
  obtain ⟨hmem, hkey⟩ := mem_ofKind.mp hentry
  have hfine := List.flatMap_eq_nil_iff.mp h _ hmem
  cases value with
  | null => exact .inl rfl
  | object inner => exact .inr ⟨inner, rfl⟩
  | _ => simp [entryMalformations, hkey] at hfine

theorem nullOrObject_of_group (h : style.malformations = []) {value : Value}
    (hmem : (rule.keyword, value) ∈ style) : NullOrObject value := by
  have hfine := List.flatMap_eq_nil_iff.mp h _ hmem
  cases value with
  | null => exact .inl rfl
  | object inner => exact .inr ⟨inner, rfl⟩
  | _ => simp [entryMalformations, KeyKind.ofKey_keyword] at hfine

theorem nullOrObject_of_condition (h : style.malformations = []) {group : Members}
    (hmem : (rule.keyword, .object group) ∈ style) :
    ∀ entry ∈ group, NullOrObject entry.2 := by
  have hfine := List.flatMap_eq_nil_iff.mp h _ hmem
  simp only [entryMalformations, KeyKind.ofKey_keyword, List.flatMap_eq_nil_iff] at hfine
  rintro ⟨condition, value⟩ hentry
  have hvalue := hfine _ hentry
  cases value with
  | null => exact .inl rfl
  | object inner => exact .inr ⟨inner, rfl⟩
  | _ => simp [Value.isNull, Value.members?] at hvalue

/-- No key twice means one group at most for each keyword, the one that is looked up. -/
theorem ofKind_group_eq (h : (style.map Prod.fst).Nodup) (rule : AtRule) :
    style.ofKind (.group rule) = (style.get? rule.keyword).toList.map (rule.keyword, ·) := by
  induction style with
  | nil => rfl
  | cons entry rest ih =>
    obtain ⟨key, value⟩ := entry
    rw [List.map_cons, List.nodup_cons] at h
    rw [ofKind, get?] at ih ⊢
    by_cases hkey : key = rule.keyword
    · subst hkey
      have hnone : rest.filter (fun (key, _) => KeyKind.ofKey key = .group rule) = [] := by
        rw [List.filter_eq_nil_iff]
        rintro ⟨key, other⟩ hmem hgroup
        obtain rfl := KeyKind.ofKey_eq_group_iff.mp (of_decide_eq_true hgroup)
        exact h.1 (List.mem_map.mpr ⟨_, hmem, rfl⟩)
      simp [KeyKind.ofKey_keyword, hnone]
    · have hkind : KeyKind.ofKey key ≠ .group rule := fun hgroup =>
        hkey (KeyKind.ofKey_eq_group_iff.mp hgroup)
      have hlookup : (rule.keyword == key) = false := by simpa using Ne.symm hkey
      rw [List.filter_cons_of_neg (by simpa using hkind), List.lookup_cons, hlookup, ih h.2]

end

end Members

namespace Buckets

variable {style : Members}

/-- Each bucket holds what belongs into it. -/
theorem bucket_ofMembers (hkeys : style.KeysOnce) (h : style.malformations = [])
    (kind : KeyKind) :
    (ofMembers style).bucket kind = style.part kind := by
  cases kind with
  | property => exact declarations_ofMembers_of_wellFormed h
  | nested =>
    rw [bucket, nested_ofMembers, Members.map_objects_eq_given
      fun _ => Members.nullOrObject_of_nested h]
    rfl
  | group rule =>
    rw [bucket, group_ofMembers, Members.ofKind_group_eq hkeys.entries, Members.part]
    cases hgroup : style.get? rule.keyword with
    | none => rfl
    | some value =>
      have hmem : (rule.keyword, value) ∈ style := Members.mem_of_get? hgroup
      rcases Members.nullOrObject_of_group h hmem with rfl | ⟨group, rfl⟩
      · rfl
      · have hconditions := Members.nullOrObject_of_condition h hmem
        simp [Members.objects, Value.members?, ← Members.map_objects_eq_given hconditions]

end Buckets

/-! ## Piece by piece -/

/-- Sorting by a key is a rearrangement, if each key that occurs is asked for once. -/
theorem perm_flatMap_filter {α κ : Type} [DecidableEq κ] {keys : List κ} (hkeys : keys.Nodup)
    (f : α → κ) {l : List α} (h : ∀ a ∈ l, f a ∈ keys) :
    (keys.flatMap fun key => l.filter fun a => f a = key).Perm l := by
  induction l with
  | nil => simp
  | cons a l ih =>
    obtain ⟨ha, hl⟩ := List.forall_mem_cons.mp h
    obtain ⟨before, after, rfl⟩ := List.append_of_mem ha
    have hother : ∀ {part : List κ}, f a ∉ part →
        (part.flatMap fun key => (a :: l).filter fun a => f a = key) =
          part.flatMap fun key => l.filter fun a => f a = key := by
      intro part hpart
      refine List.flatMap_congr fun key hkey => ?_
      rw [List.filter_cons_of_neg]
      simpa using fun heq : f a = key => hpart (heq ▸ hkey)
    rw [List.nodup_append, List.nodup_cons] at hkeys
    obtain ⟨-, ⟨hafter, -⟩, hdisjoint⟩ := hkeys
    have hbefore : f a ∉ before := fun hmem => hdisjoint _ hmem _ List.mem_cons_self rfl
    have hrest := ih hl
    rw [List.flatMap_append, List.flatMap_cons] at hrest ⊢
    rw [hother hbefore, hother hafter, List.filter_cons_of_pos (by simp), List.cons_append]
    exact List.perm_middle.trans (hrest.cons a)

namespace Members

theorem fst_of_mem_entryPieces {entry : String × Value} {piece : KeyKind × String × Value}
    (h : piece ∈ entryPieces entry) : piece.1 = KeyKind.ofKey entry.1 := by
  obtain ⟨key, value⟩ := entry
  rw [entryPieces] at h
  split at h
  all_goals
    obtain ⟨found, -, rfl⟩ := List.mem_map.mp h
    simp [*]

theorem filter_pieces (style : Members) (kind : KeyKind) :
    (style.pieces.filter fun piece => piece.1 = kind) =
      (style.ofKind kind).flatMap entryPieces := by
  rw [pieces, List.filter_flatMap, ofKind]
  induction style with
  | nil => rfl
  | cons entry rest ih =>
    rw [List.flatMap_cons, ih]
    by_cases hkey : KeyKind.ofKey entry.1 = kind
    · rw [List.filter_cons_of_pos (by simpa using hkey), List.flatMap_cons,
        List.filter_eq_self.mpr]
      exact fun piece hpiece => by simp [fst_of_mem_entryPieces hpiece, hkey]
    · rw [List.filter_cons_of_neg (by simpa using hkey), List.filter_eq_nil_iff.mpr,
        List.nil_append]
      exact fun piece hpiece => by simp [fst_of_mem_entryPieces hpiece, hkey]

theorem entryPieces_of_ne_group {entry : String × Value}
    (h : ∀ rule, KeyKind.ofKey entry.1 ≠ .group rule) :
    entryPieces entry = (given [entry]).map (KeyKind.ofKey entry.1, ·) := by
  obtain ⟨key, value⟩ := entry
  rw [entryPieces]
  split
  · rename_i rule hkey
    exact absurd hkey (h rule)
  · rfl

theorem flatMap_entryPieces {kind : KeyKind} {members : Members}
    (hkind : ∀ rule, kind ≠ .group rule) (h : ∀ entry ∈ members, KeyKind.ofKey entry.1 = kind) :
    members.flatMap entryPieces = members.given.map (kind, ·) := by
  induction members with
  | nil => rfl
  | cons entry rest ih =>
    obtain ⟨hentry, hrest⟩ := List.forall_mem_cons.mp h
    rw [List.flatMap_cons, ih hrest, entryPieces_of_ne_group (hentry ▸ hkind), hentry,
      ← List.map_append, given, given, ← List.filter_append, List.singleton_append, given]

/-- The pieces of one kind are those that belong into the bucket for it. -/
theorem filter_pieces_eq_part {style : Members} (hkeys : (style.map Prod.fst).Nodup)
    (kind : KeyKind) :
    (style.pieces.filter fun piece => piece.1 = kind) = (style.part kind).map (kind, ·) := by
  have hofKind : ∀ entry ∈ style.ofKind kind, KeyKind.ofKey entry.1 = kind :=
    fun _ hentry => (mem_ofKind.mp hentry).2
  rw [filter_pieces]
  cases kind with
  | property => exact flatMap_entryPieces (by simp) hofKind
  | nested => exact flatMap_entryPieces (by simp) hofKind
  | group rule =>
    rw [ofKind_group_eq hkeys, part]
    cases style.get? rule.keyword with
    | none => rfl
    | some value =>
      cases value <;> simp [entryPieces, KeyKind.ofKey_keyword, Value.members?, given]

end Members

namespace KeyKind

theorem mem_all (kind : KeyKind) : kind ∈ all := by
  rcases kind with _ | _ | rule
  · decide
  · decide
  · cases rule <;> decide

end KeyKind

namespace Buckets

variable {style : Members}

theorem pieces_ofMembers_perm (hkeys : style.KeysOnce) (h : style.malformations = []) :
    (ofMembers style).pieces.Perm style.pieces := by
  have hsorted : (ofMembers style).pieces =
      KeyKind.all.flatMap fun kind => style.pieces.filter fun piece => piece.1 = kind :=
    List.flatMap_congr fun kind _ => by
      rw [bucket_ofMembers hkeys h, Members.filter_pieces_eq_part hkeys.entries]
  rw [hsorted]
  exact perm_flatMap_filter (by decide) Prod.fst fun piece _ => KeyKind.mem_all piece.1

end Buckets

/-! ## Keys -/

namespace Members

theorem KeysOnce.part {style : Members} (h : style.KeysOnce) (kind : KeyKind) :
    ((style.part kind).map Prod.fst).Nodup := by
  have hkind : ∀ kind, ((style.ofKind kind).given.map Prod.fst).Nodup := fun kind =>
    h.entries.sublist ((List.filter_sublist.trans List.filter_sublist).map Prod.fst)
  cases kind with
  | property => exact hkind .property
  | nested => exact hkind .nested
  | group rule =>
    rw [Members.part]
    split
    · rename_i group hgroup
      have hconditions := h.conditions rule group (mem_of_get? hgroup)
      exact hconditions.sublist (List.filter_sublist.map Prod.fst)
    · exact List.nodup_nil

end Members

namespace Buckets

/-- Each entry is of the kind of its bucket, nothing is malformed, and no bucket has a key twice. -/
structure Tidy (b : Buckets Members) : Prop where
  malformed : b.malformed = []
  declarations : ∀ entry ∈ b.declarations, KeyKind.ofKey entry.1 = .property
    ∧ entry.2.isNull = false ∧ entry.2.members? = none
  nested : ∀ entry ∈ b.nested, KeyKind.ofKey entry.1 = .nested
  keysOnce : ∀ kind, ((b.bucket kind).map Prod.fst).Nodup

theorem tidy_ofMembers {style : Members} (hkeys : style.KeysOnce) (h : style.malformations = []) :
    (ofMembers style).Tidy where
  malformed := by rw [malformed_ofMembers, h]
  declarations := by
    rw [declarations_ofMembers_of_wellFormed h]
    rintro ⟨key, value⟩ hentry
    have hvalue := Members.not_object_of_mem_properties h hentry
    obtain ⟨hentry, hnull⟩ := List.mem_filter.mp hentry
    exact ⟨(Members.mem_ofKind.mp hentry).2, by simpa using hnull, hvalue⟩
  nested := by
    rw [nested_ofMembers]
    rintro ⟨key, inner⟩ hentry
    exact (Members.mem_ofKind.mp (Members.mem_objects.mp hentry)).2
  keysOnce kind := by
    rw [bucket_ofMembers hkeys h]
    exact hkeys.part kind

variable {b : Buckets Members}

/-- No two pieces in the buckets are of one kind and one key. -/
theorem nodup_pieces (h : ∀ kind, ((b.bucket kind).map Prod.fst).Nodup) :
    (b.pieces.map fun (kind, key, _) => (kind, key)).Nodup := by
  have hkeys : (b.pieces.map fun (kind, key, _) => (kind, key)) =
      KeyKind.all.flatMap fun kind => ((b.bucket kind).map Prod.fst).map (kind, ·) := by
    rw [pieces, List.map_flatMap]
    exact List.flatMap_congr fun kind _ => by simp
  have hkinds : KeyKind.all.Pairwise (· ≠ ·) := by decide
  rw [hkeys, List.nodup_flatMap]
  refine ⟨fun kind _ => (h kind).map (Prod.mk_right_injective kind), hkinds.imp fun hne => ?_⟩
  intro found hfound hfound'
  obtain ⟨_, -, rfl⟩ := List.mem_map.mp hfound
  obtain ⟨_, -, heq⟩ := List.mem_map.mp hfound'
  exact hne (Prod.mk.inj heq).1.symm

end Buckets

/-! ## Written out and sorted again -/

namespace Members

theorem ofKind_eq_self {members : Members} {kind : KeyKind}
    (h : ∀ entry ∈ members, KeyKind.ofKey entry.1 = kind) : members.ofKind kind = members :=
  List.filter_eq_self.mpr fun entry hentry => decide_eq_true (h entry hentry)

theorem ofKind_eq_nil {members : Members} {kind : KeyKind}
    (h : ∀ entry ∈ members, KeyKind.ofKey entry.1 ≠ kind) : members.ofKind kind = [] :=
  List.filter_eq_nil_iff.mpr fun entry hentry => by simpa using h entry hentry

theorem objects_map_object (entries : List (String × Members)) :
    objects (entries.map fun (key, inner) => (key, .object inner)) = entries := by
  simp [objects, List.filterMap_map, Value.members?]

theorem disjoint_of_kinds {first second : Members}
    (h : ∀ entry ∈ first, ∀ other ∈ second, KeyKind.ofKey entry.1 ≠ KeyKind.ofKey other.1) :
    List.Disjoint (first.map Prod.fst) (second.map Prod.fst) := by
  intro key hkey hkey'
  obtain ⟨entry, hentry, rfl⟩ := List.mem_map.mp hkey
  obtain ⟨other, hother, heq⟩ := List.mem_map.mp hkey'
  exact h entry hentry other hother (by rw [heq])

end Members

namespace Buckets

variable {b : Buckets Members}

theorem Tidy.kind_of_mem_property (h : b.Tidy) :
    ∀ entry ∈ b.bucket .property, KeyKind.ofKey entry.1 = .property :=
  fun entry hentry => (h.declarations entry hentry).1

theorem Tidy.kind_of_mem_nested (h : b.Tidy) :
    ∀ entry ∈ b.bucket .nested, KeyKind.ofKey entry.1 = .nested := by
  rw [bucket, List.forall_mem_map]
  exact h.nested

theorem exists_of_mem_groupEntries {entry : String × Value} (h : entry ∈ b.groupEntries) :
    ∃ rule, KeyKind.ofKey entry.1 = .group rule := by
  obtain ⟨rule, -, rfl⟩ := List.mem_map.mp h
  exact ⟨rule, KeyKind.ofKey_keyword rule⟩

theorem Tidy.nodup_keys (h : b.Tidy) :
    ((b.bucket .property ++ b.bucket .nested ++ b.groupEntries).map Prod.fst).Nodup := by
  have hgroups : (b.groupEntries.map Prod.fst).Nodup := by
    have hrules : (AtRule.all.filter fun rule => ! (b.group rule).isEmpty).Nodup :=
      List.Nodup.filter _ (by decide)
    rw [groupEntries, List.map_map]
    exact hrules.map fun rule other heq => AtRule.keyword_inj.mp heq
  rw [List.append_assoc, List.map_append, List.map_append, List.nodup_append', List.nodup_append',
    ← List.map_append]
  refine ⟨h.keysOnce .property, ⟨h.keysOnce .nested, hgroups, ?_⟩, ?_⟩
  · refine Members.disjoint_of_kinds fun entry hentry other hother => ?_
    obtain ⟨rule, hrule⟩ := exists_of_mem_groupEntries hother
    simp [h.kind_of_mem_nested entry hentry, hrule]
  · refine Members.disjoint_of_kinds fun entry hentry other hother => ?_
    rw [h.kind_of_mem_property entry hentry]
    rcases List.mem_append.mp hother with hother | hother
    · simp [h.kind_of_mem_nested other hother]
    · obtain ⟨rule, hrule⟩ := exists_of_mem_groupEntries hother
      simp [hrule]

theorem Tidy.rebuild_eq (h : b.Tidy) :
    b.rebuild = b.bucket .property ++ b.bucket .nested ++ b.groupEntries :=
  Members.ofPairs_of_nodup h.nodup_keys

theorem ofKind_groupEntries_eq_nil {kind : KeyKind} (hkind : ∀ rule, kind ≠ .group rule) :
    Members.ofKind kind b.groupEntries = [] := by
  refine Members.ofKind_eq_nil fun entry hentry heq => ?_
  obtain ⟨rule, hrule⟩ := exists_of_mem_groupEntries hentry
  exact hkind rule (heq.symm.trans hrule)

theorem Tidy.ofKind_group_groupEntries (h : b.Tidy) (rule : AtRule) :
    Members.ofKind (.group rule) b.groupEntries =
      if (b.group rule).isEmpty then []
      else [(rule.keyword, .object (b.bucket (.group rule)))] := by
  have hinner : ∀ rule, Members.ofPairs (b.bucket (.group rule)) = b.bucket (.group rule) :=
    fun rule => Members.ofPairs_of_nodup (h.keysOnce (.group rule))
  have honce : AtRule.all.filter (· = rule) = [rule] := by
    cases rule <;> decide
  have hkind : (fun entry : String × Value => decide (KeyKind.ofKey entry.1 = .group rule)) ∘
      (fun other : AtRule => (other.keyword, Value.object (b.bucket (.group other)))) =
        fun other => decide (other = rule) := by
    funext other
    simp [KeyKind.ofKey_keyword]
  rw [groupEntries, Members.ofKind]
  simp only [hinner]
  rw [List.filter_map, hkind, List.filter_comm, honce]
  cases hempty : (b.group rule).isEmpty <;> simp [hempty]

theorem Tidy.ofKind_property_rebuild (h : b.Tidy) :
    b.rebuild.ofKind .property = b.declarations := by
  rw [h.rebuild_eq, Members.ofKind_append, Members.ofKind_append,
    Members.ofKind_eq_self h.kind_of_mem_property,
    Members.ofKind_eq_nil fun entry hentry => by simp [h.kind_of_mem_nested entry hentry],
    ofKind_groupEntries_eq_nil (by simp), List.append_nil, List.append_nil, bucket]

theorem Tidy.ofKind_nested_rebuild (h : b.Tidy) :
    b.rebuild.ofKind .nested = b.bucket .nested := by
  rw [h.rebuild_eq, Members.ofKind_append, Members.ofKind_append,
    Members.ofKind_eq_nil fun entry hentry => by simp [h.kind_of_mem_property entry hentry],
    Members.ofKind_eq_self h.kind_of_mem_nested,
    ofKind_groupEntries_eq_nil (by simp), List.nil_append, List.append_nil]

theorem Tidy.ofKind_group_rebuild (h : b.Tidy) (rule : AtRule) :
    b.rebuild.ofKind (.group rule) =
      if (b.group rule).isEmpty then []
      else [(rule.keyword, .object (b.bucket (.group rule)))] := by
  rw [h.rebuild_eq, Members.ofKind_append, Members.ofKind_append,
    Members.ofKind_eq_nil fun entry hentry => by simp [h.kind_of_mem_property entry hentry],
    Members.ofKind_eq_nil fun entry hentry => by simp [h.kind_of_mem_nested entry hentry],
    h.ofKind_group_groupEntries, List.nil_append, List.nil_append]

theorem Tidy.malformations_rebuild (h : b.Tidy) : b.rebuild.malformations = [] := by
  rw [h.rebuild_eq, Members.malformations, List.flatMap_eq_nil_iff]
  intro entry hentry
  rcases List.mem_append.mp hentry with hentry | hentry
  · rcases List.mem_append.mp hentry with hentry | hentry
    · obtain ⟨hkind, -, hvalue⟩ := h.declarations entry hentry
      obtain ⟨key, value⟩ := entry
      cases value with
      | object inner => cases hvalue
      | _ => simp [Members.entryMalformations, hkind]
    · have hkind := h.kind_of_mem_nested entry hentry
      obtain ⟨⟨key, inner⟩, -, rfl⟩ := List.mem_map.mp hentry
      simp [Members.entryMalformations, hkind]
  · obtain ⟨rule, -, rfl⟩ := List.mem_map.mp hentry
    rw [Members.ofPairs_of_nodup (h.keysOnce (.group rule))]
    simp only [Members.entryMalformations, KeyKind.ofKey_keyword, List.flatMap_eq_nil_iff]
    intro entry hentry
    obtain ⟨⟨condition, inner⟩, -, rfl⟩ := List.mem_map.mp hentry
    rfl

theorem eq_of_entries {b c : Buckets Members} (hmalformed : b.malformed = c.malformed)
    (hdeclarations : b.declarations = c.declarations) (hnested : b.nested = c.nested)
    (hgroup : ∀ rule, b.group rule = c.group rule) : b = c := by
  have hcontainer := hgroup .container
  have hmedia := hgroup .media
  have hsupports := hgroup .supports
  cases b
  cases c
  simp_all [group]

/-- Tidy buckets come back when they are written out and sorted again. -/
theorem Tidy.partition_rebuild (h : b.Tidy) (path : List String) :
    partition b.rebuild path = .ok b := by
  rw [partition_ok_iff]
  refine ⟨h.malformations_rebuild, (eq_of_entries ?_ ?_ ?_ fun rule => ?_).symm⟩
  · rw [malformed_ofMembers, h.malformations_rebuild, h.malformed]
  · rw [declarations_ofMembers_of_wellFormed h.malformations_rebuild, Members.properties,
      h.ofKind_property_rebuild, List.filter_eq_self]
    exact fun entry hentry => by simp [(h.declarations entry hentry).2.1]
  · rw [nested_ofMembers, h.ofKind_nested_rebuild, bucket, Members.objects_map_object]
  · rw [group_ofMembers, h.ofKind_group_rebuild]
    cases hgroup : b.group rule with
    | nil => rfl
    | cons first rest =>
      have hbucket : Members.objects (b.bucket (.group rule)) = b.group rule :=
        Members.objects_map_object (b.group rule)
      simpa [Members.objects, Value.members?, hgroup] using hbucket

end Buckets

/-- **Sorting loses nothing, and can be turned back.** When a style object is sorted, each bucket
holds what belongs into it, in order; together the buckets hold each entry and condition that is
not null, in one place each. Written out and sorted again they are the same. -/
theorem partition_keeps_all {style : Members} {path : List String} {b : Buckets Members}
    (hkeys : style.KeysOnce) (h : partition style path = .ok b) :
    (∀ kind, b.bucket kind = style.part kind)
    ∧ b.pieces.Perm style.pieces
    ∧ (b.pieces.map fun (kind, key, _) => (kind, key)).Nodup
    ∧ ∀ path, partition b.rebuild path = .ok b := by
  obtain ⟨hfine, rfl⟩ := partition_ok_iff.mp h
  have htidy := Buckets.tidy_ofMembers hkeys hfine
  exact ⟨Buckets.bucket_ofMembers hkeys hfine, Buckets.pieces_ofMembers_perm hkeys hfine,
    Buckets.nodup_pieces htidy.keysOnce, htidy.partition_rebuild⟩

/-- Nulls of all kinds, and a group with nothing in it. -/
def assorted : Members :=
  [("color", .str "red"), ("&:hover", .object [("color", .str "blue")]), ("margin", .null),
    ("@media", .object [("print", .null), ("mobile", .object [])]), (" .icon", .null),
    ("padding", .int 4), ("@supports", .object [])]

theorem partition_keeps_all_assorted :
    Members.KeysOnce assorted ∧ ∃ b, partition assorted ["card"] = .ok b
      ∧ b.rebuild = [("color", .str "red"), ("padding", .int 4),
        ("&:hover", .object [("color", .str "blue")]),
        ("@media", .object [("mobile", .object [])])]
      ∧ b.pieces.Perm (Members.pieces assorted)
      ∧ partition b.rebuild ["card"] = .ok b := by
  have hkeys : Members.KeysOnce assorted := by
    refine ⟨by decide, fun rule group hmem => ?_⟩
    cases rule <;> simp [assorted, AtRule.keyword] at hmem <;> simp [hmem]
  have hok : partition assorted ["card"] = .ok _ := rfl
  obtain ⟨-, hperm, -, hrebuild⟩ := partition_keeps_all hkeys hok
  exact ⟨hkeys, _, hok, rfl, hperm, hrebuild ["card"]⟩

end Cascade
