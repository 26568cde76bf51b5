import Cascade.Style.Block

/-!
# The tree of a style object

The nodes of a style object, told without sorting it: which entries lead to objects inside
(`Members.children`), all nodes in the order in which they are compiled (`Members.nodes`) and what
is malformed in a single node (`Members.malformations`). Sorted blocks play no part in these
definitions; `Cascade.Proofs.Style.Sorted` ties the two together.

A node is addressed by the branches that lead to it. `Members.Reaches` gives the addressed nodes
as a relation, one rule for each kind of branch, and `mem_nodes_iff` says that the listing misses
none of them and adds none.
-/

namespace Cascade

/-- How one gets from a style object to an object inside it. -/
inductive Branch where
  /-- Through the entry of a nested selector. -/
  | nested (key : String)
  /-- Through a condition in a group. -/
  | under (rule : AtRule) (condition : String)
  deriving DecidableEq, Repr

namespace Branch

/-- The keys that are passed on the way. -/
def keys : Branch → List String
  | nested key => [key]
  | under rule condition => [rule.keyword, condition]

end Branch

/-! ## Kinds of keys -/

namespace KeyKind

theorem ofKey_eq_group_iff {key : String} {rule : AtRule} :
    ofKey key = .group rule ↔ key = rule.keyword := by
  constructor
  · intro h
    unfold ofKey at h
    split at h
    · cases h
    · cases h
    · split at h
      · rename_i found hfound
        obtain rfl : found = rule := by simpa using h
        exact (AtRule.keyword_of_ofKeyword? hfound).symm
      · cases h
  · rintro rfl
    exact ofKey_keyword rule

end KeyKind

namespace Members

/-! ## Children -/

/-- The members whose values are objects. -/
def objects (members : Members) : List (String × Members) :=
  members.filterMap fun (key, value) => value.members?.map fun inner => (key, inner)

theorem mem_objects {members inner : Members} {key : String} :
    (key, inner) ∈ members.objects ↔ (key, .object inner) ∈ members := by
  simp only [objects, List.mem_filterMap]
  constructor
  · rintro ⟨⟨k, value⟩, hmem, h⟩
    cases value <;> simp [Value.members?] at h
    obtain ⟨rfl, rfl⟩ := h
    exact hmem
  · intro h
    exact ⟨_, h, rfl⟩

/-- The members whose keys are of one kind. -/
def ofKind (kind : KeyKind) (members : Members) : Members :=
  members.filter fun (key, _) => KeyKind.ofKey key = kind

theorem mem_ofKind {members : Members} {kind : KeyKind} {entry : String × Value} :
    entry ∈ members.ofKind kind ↔ entry ∈ members ∧ KeyKind.ofKey entry.1 = kind := by
  rw [ofKind, List.mem_filter, decide_eq_true_iff]

/-- The objects of nested selectors. -/
def nestedChildren (style : Members) : List (Branch × Members) :=
  (objects (style.ofKind .nested)).map fun (key, inner) => (.nested key, inner)

/-- The objects under the conditions of one kind of group. -/
def conditionChildren (rule : AtRule) (style : Members) : List (Branch × Members) :=
  (objects (style.ofKind (.group rule))).flatMap
    fun (_, group) => (objects group).map fun (condition, inner) => (.under rule condition, inner)

/-- The objects one branch away: those of nested selectors, then those under conditions, one kind
of group after the other. -/
def children (style : Members) : List (Branch × Members) :=
  style.nestedChildren ++ AtRule.all.flatMap (conditionChildren · style)

theorem mem_nestedChildren {style inner : Members} {branch : Branch} :
    (branch, inner) ∈ style.nestedChildren ↔
      ∃ key, branch = .nested key ∧ (key, .object inner) ∈ style
        ∧ KeyKind.ofKey key = .nested := by
  rw [nestedChildren, List.mem_map]
  constructor
  · rintro ⟨⟨key, found⟩, hfound, heq⟩
    obtain ⟨rfl, rfl⟩ := Prod.mk.injEq .. |>.mp heq
    obtain ⟨hmem, hkey⟩ := mem_ofKind.mp (mem_objects.mp hfound)
    exact ⟨key, rfl, hmem, hkey⟩
  · rintro ⟨key, rfl, hmem, hkey⟩
    exact ⟨(key, inner), mem_objects.mpr (mem_ofKind.mpr ⟨hmem, hkey⟩), rfl⟩

theorem mem_conditionChildren {style inner : Members} {rule : AtRule} {branch : Branch} :
    (branch, inner) ∈ style.conditionChildren rule ↔
      ∃ condition group, branch = .under rule condition
        ∧ (rule.keyword, .object group) ∈ style ∧ (condition, .object inner) ∈ group := by
  simp only [conditionChildren, List.mem_flatMap, List.mem_map]
  constructor
  · rintro ⟨⟨key, group⟩, hgroup, ⟨condition, found⟩, hinner, heq⟩
    obtain ⟨rfl, rfl⟩ := Prod.mk.injEq .. |>.mp heq
    obtain ⟨hmem, hkey⟩ := mem_ofKind.mp (mem_objects.mp hgroup)
    obtain rfl := KeyKind.ofKey_eq_group_iff.mp hkey
    exact ⟨condition, group, rfl, hmem, mem_objects.mp hinner⟩
  · rintro ⟨condition, group, rfl, hmem, hinner⟩
    exact ⟨(rule.keyword, group),
      mem_objects.mpr (mem_ofKind.mpr ⟨hmem, KeyKind.ofKey_keyword rule⟩),
      (condition, inner), mem_objects.mpr hinner, rfl⟩

theorem mem_children {style inner : Members} {branch : Branch} :
    (branch, inner) ∈ style.children ↔
      (∃ key, branch = .nested key ∧ (key, .object inner) ∈ style ∧ KeyKind.ofKey key = .nested)
      ∨ ∃ rule condition group, branch = .under rule condition
        ∧ (rule.keyword, .object group) ∈ style ∧ (condition, .object inner) ∈ group := by
  simp only [children, List.mem_append, mem_nestedChildren, List.mem_flatMap]
  refine or_congr Iff.rfl ⟨?_, ?_⟩
  · rintro ⟨rule, -, h⟩
    exact ⟨rule, mem_conditionChildren.mp h⟩
  · rintro ⟨rule, h⟩
    exact ⟨rule, by cases rule <;> decide, mem_conditionChildren.mpr h⟩

theorem sizeOf_lt_of_mem {members inner : Members} {key : String}
    (h : (key, .object inner) ∈ members) : sizeOf inner < sizeOf members := by
  have hentry := List.sizeOf_lt_of_mem h
  simp only [Prod.mk.sizeOf_spec, Value.object.sizeOf_spec] at hentry
  omega

theorem sizeOf_lt_of_mem_children {style : Members} {child : Branch × Members}
    (h : child ∈ style.children) : sizeOf child.2 < sizeOf style := by
  obtain ⟨branch, inner⟩ := child
  rcases mem_children.mp h with ⟨key, -, hmem, -⟩ | ⟨rule, condition, group, -, hmem, hinner⟩
  · exact sizeOf_lt_of_mem hmem
  · exact Nat.lt_trans (sizeOf_lt_of_mem hinner) (sizeOf_lt_of_mem hmem)

/-- Induction over a style tree: what holds of a style object whenever it holds of its children
holds of every style object. -/
theorem treeInduction {motive : Members → Prop}
    (step : ∀ style : Members, (∀ child ∈ style.children, motive child.2) → motive style)
    (style : Members) : motive style :=
  step style fun child h => by
    have := sizeOf_lt_of_mem_children h
    exact treeInduction step child.2
termination_by sizeOf style

/-! ## Nodes -/

/-- All nodes with their addresses: a style object comes before the objects inside it. -/
def nodes (style : Members) : List (List Branch × Members) :=
  ([], style) :: style.children.attach.flatMap fun ⟨(branch, inner), h⟩ =>
    have := sizeOf_lt_of_mem_children h
    (nodes inner).map fun (path, node) => (branch :: path, node)
termination_by sizeOf style

theorem nodes_eq (style : Members) :
    style.nodes = ([], style) :: style.children.flatMap fun (branch, inner) =>
      inner.nodes.map fun (path, node) => (branch :: path, node) := by
  rw [nodes, List.cons.injEq]
  refine ⟨rfl, ?_⟩
  conv => rhs; rw [← List.attach_map_subtype_val style.children, List.flatMap_map]

/-- The node at an address. -/
inductive Reaches : Members → List Branch → Members → Prop
  | here (style : Members) : Reaches style [] style
  | nested {style inner node : Members} {key : String} {path : List Branch}
      (hmem : (key, .object inner) ∈ style) (hkey : KeyKind.ofKey key = .nested)
      (hrest : Reaches inner path node) : Reaches style (.nested key :: path) node
  | under {style group inner node : Members} {rule : AtRule} {condition : String}
      {path : List Branch} (hmem : (rule.keyword, .object group) ∈ style)
      (hinner : (condition, .object inner) ∈ group) (hrest : Reaches inner path node) :
      Reaches style (.under rule condition :: path) node

theorem Reaches.child {style inner node : Members} {branch : Branch} {path : List Branch}
    (hchild : (branch, inner) ∈ style.children) (hrest : Reaches inner path node) :
    Reaches style (branch :: path) node := by
  rcases mem_children.mp hchild with
    ⟨key, rfl, hmem, hkey⟩ | ⟨rule, condition, group, rfl, hmem, hinner⟩
  · exact .nested hmem hkey hrest
  · exact .under hmem hinner hrest

theorem reaches_iff {style node : Members} {path : List Branch} :
    Reaches style path node ↔
      (path = [] ∧ node = style) ∨ ∃ branch inner rest, path = branch :: rest
        ∧ (branch, inner) ∈ style.children ∧ Reaches inner rest node := by
  constructor
  · intro h
    cases h with
    | here => exact .inl ⟨rfl, rfl⟩
    | nested hmem hkey hrest =>
      exact .inr ⟨_, _, _, rfl, mem_children.mpr (.inl ⟨_, rfl, hmem, hkey⟩), hrest⟩
    | under hmem hinner hrest =>
      exact .inr ⟨_, _, _, rfl, mem_children.mpr (.inr ⟨_, _, _, rfl, hmem, hinner⟩), hrest⟩
  · rintro (⟨rfl, rfl⟩ | ⟨branch, inner, rest, rfl, hchild, hrest⟩)
    · exact .here _
    · exact .child hchild hrest

/-- The nodes are listed completely and without additions. -/
theorem mem_nodes_iff {style node : Members} {path : List Branch} :
    (path, node) ∈ style.nodes ↔ Reaches style path node := by
  induction style using treeInduction generalizing path with
  | step style ih =>
    rw [nodes_eq, List.mem_cons, List.mem_flatMap, reaches_iff]
    refine or_congr (by rw [Prod.mk.injEq]) ⟨?_, ?_⟩
    · rintro ⟨⟨branch, inner⟩, hchild, h⟩
      obtain ⟨⟨rest, found⟩, hfound, heq⟩ := List.mem_map.mp h
      obtain ⟨rfl, rfl⟩ := Prod.mk.injEq .. |>.mp heq
      exact ⟨branch, inner, rest, rfl, hchild, (ih _ hchild).mp hfound⟩
    · rintro ⟨branch, inner, rest, rfl, hchild, hrest⟩
      exact ⟨_, hchild, List.mem_map.mpr ⟨_, (ih _ hchild).mpr hrest, rfl⟩⟩

/-! ## One node -/

/-- What is malformed about the value of an entry: a property that holds an object, a nested
selector or a group that is neither null nor an object, and in a group the conditions that are
neither. -/
def entryMalformations : String × Value → List Cause
  | (_, .null) => []
  | (key, .object inner) =>
    match KeyKind.ofKey key with
    | .property => [.propertyHoldsObject key]
    | .nested => []
    | .group rule =>
      inner.flatMap fun (condition, value) =>
        if value.isNull || value.members?.isSome then []
        else [.conditionNotObject rule condition value.kind]
  | (key, value) =>
    match KeyKind.ofKey key with
    | .property => []
    | .nested => [.nestedNotObject key value.kind]
    | .group rule => [.groupNotObject rule value.kind]

/-- What is malformed in a style object itself, in the order of its entries. -/
def malformations (style : Members) : List Cause :=
  style.flatMap entryMalformations

/-- The properties of a style object that are not null. -/
def properties (style : Members) : Members :=
  (style.ofKind .property).filter fun (_, value) => ! value.isNull

/-- No key stands twice in a node, and no condition twice in one of its groups. -/
structure KeysOnce (node : Members) : Prop where
  entries : (node.map Prod.fst).Nodup
  conditions : ∀ (rule : AtRule) (group : Members),
    (rule.keyword, .object group) ∈ node → (group.map Prod.fst).Nodup

/-! ## All nodes -/

/-- Whether something holds of every node of the tree. -/
def Everywhere (p : Members → Prop) (style : Members) : Prop :=
  ∀ path node, Reaches style path node → p node

/-- No node has a malformed entry. -/
def WellFormed : Members → Prop :=
  Everywhere fun node => node.malformations = []

/-- No node has a property that is not null. -/
def Silent : Members → Prop :=
  Everywhere fun node => node.properties = []

theorem everywhere_iff {p : Members → Prop} {style : Members} :
    Everywhere p style ↔ p style ∧ ∀ child ∈ style.children, Everywhere p child.2 := by
  constructor
  · intro h
    refine ⟨h [] style (.here style), fun child hchild path node hreach => ?_⟩
    exact h (child.1 :: path) node (.child hchild hreach)
  · rintro ⟨hroot, hchildren⟩ path node hreach
    rcases reaches_iff.mp hreach with ⟨-, rfl⟩ | ⟨branch, inner, rest, -, hchild, hrest⟩
    · exact hroot
    · exact hchildren _ hchild rest node hrest

theorem everywhere_iff_nodes {p : Members → Prop} {style : Members} :
    Everywhere p style ↔ ∀ entry ∈ style.nodes, p entry.2 := by
  constructor
  · rintro h ⟨path, node⟩ hmem
    exact h path node (mem_nodes_iff.mp hmem)
  · intro h path node hreach
    exact h (path, node) (mem_nodes_iff.mpr hreach)

end Members

end Cascade
