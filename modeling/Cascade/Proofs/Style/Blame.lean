import Cascade.Proofs.Style.Sorted

/-!
# Which fault is told

Two orders meet when a style object is refused: a node is looked over entry by entry before
anything inside it, while the nodes themselves follow one another in the order of their kinds.
`Malformed` states, without any order, what an entry can be blamed for, and `FirstMalformed`
singles out the entry that is blamed.

`compile_outcome_error_iff` is the main statement: a style object is refused exactly if some
reachable node has a malformed entry, and the fault is that of the first malformed entry of the
first malformed node, with the address of that node.
-/

namespace Cascade

/-! ## Malformed entries -/

namespace Members

/-- What an entry of a style object is malformed for. -/
inductive Malformed : String × Value → Cause → Prop
  /-- A property that holds an object. -/
  | property {key : String} {inner : Members} (hkey : KeyKind.ofKey key = .property) :
      Malformed (key, .object inner) (.propertyHoldsObject key)
  /-- A nested selector that is neither null nor an object. -/
  | nested {key : String} {value : Value} (hkey : KeyKind.ofKey key = .nested)
      (hnull : value ≠ .null) (hobject : ∀ inner, value ≠ .object inner) :
      Malformed (key, value) (.nestedNotObject key value.kind)
  /-- A group that is neither null nor an object. -/
  | group {rule : AtRule} {value : Value} (hnull : value ≠ .null)
      (hobject : ∀ inner, value ≠ .object inner) :
      Malformed (rule.keyword, value) (.groupNotObject rule value.kind)
  /-- A group with a condition that is neither null nor an object. -/
  | condition {rule : AtRule} {group : Members} {condition : String} {value : Value}
      (hmem : (condition, value) ∈ group) (hnull : value ≠ .null)
      (hobject : ∀ inner, value ≠ .object inner) :
      Malformed (rule.keyword, .object group) (.conditionNotObject rule condition value.kind)

theorem mem_entryMalformations_iff {entry : String × Value} {cause : Cause} :
    cause ∈ entryMalformations entry ↔ Malformed entry cause := by
  constructor
  · intro h
    obtain ⟨key, value⟩ := entry
    cases hkey : KeyKind.ofKey key with
    | property =>
      cases value <;> simp [entryMalformations, hkey] at h
      subst h
      exact .property hkey
    | nested =>
      cases value <;> simp [entryMalformations, hkey] at h
      all_goals
        subst h
        exact .nested hkey (by simp) (by simp)
    | group rule =>
      obtain rfl := KeyKind.ofKey_eq_group_iff.mp hkey
      cases value with
      | null => simp [entryMalformations] at h
      | object group =>
        simp only [entryMalformations, hkey, List.mem_flatMap] at h
        obtain ⟨⟨condition, value⟩, hmem, h⟩ := h
        cases value <;> simp [Value.isNull, Value.members?] at h
        all_goals
          subst h
          exact .condition hmem (by simp) (by simp)
      | _ =>
        simp only [entryMalformations, hkey, List.mem_singleton] at h
        subst h
        exact .group (by simp) (by simp)
  · intro h
    cases h with
    | property hkey => simp [entryMalformations, hkey]
    | @nested key value hkey hnull hobject =>
      cases value <;> simp_all [entryMalformations]
    | @group rule value hnull hobject =>
      cases value <;> simp_all [entryMalformations, KeyKind.ofKey_keyword]
    | @condition rule group condition value hmem hnull hobject =>
      simp only [entryMalformations, KeyKind.ofKey_keyword, List.mem_flatMap]
      refine ⟨(condition, value), hmem, ?_⟩
      cases value <;> simp_all [Value.isNull, Value.members?]

theorem malformations_ne_nil_iff {node : Members} :
    node.malformations ≠ [] ↔ ∃ entry cause, entry ∈ node ∧ Malformed entry cause := by
  rw [malformations, ne_eq, List.flatMap_eq_nil_iff]
  simp only [not_forall, exists_prop]
  constructor
  · rintro ⟨entry, hentry, h⟩
    obtain ⟨cause, hcause⟩ := List.exists_mem_of_ne_nil _ h
    exact ⟨entry, cause, hentry, mem_entryMalformations_iff.mp hcause⟩
  · rintro ⟨entry, cause, hentry, hcause⟩
    exact ⟨entry, hentry, List.ne_nil_of_mem (mem_entryMalformations_iff.mpr hcause)⟩

/-- The key of a cause is that of the entry that it was found in. -/
theorem Malformed.key? {entry : String × Value} {cause : Cause} (h : Malformed entry cause) :
    cause.key? = some entry.1 := by
  cases h <;> rfl

/-- The entry that is blamed for a malformed tree, with the address of its node: the first
malformed entry of the first node that has one. -/
def FirstMalformed (style : Members) (path : List Branch) (entry : String × Value)
    (cause : Cause) : Prop :=
  ∃ before node after earlier later,
    style.nodes = before ++ (path, node) :: after
    ∧ (∀ other ∈ before, malformations other.2 = [])
    ∧ node = earlier ++ entry :: later
    ∧ (∀ other ∈ earlier, entryMalformations other = [])
    ∧ (entryMalformations entry).head? = some cause

theorem head?_malformations_eq_some_iff {node : Members} {cause : Cause} :
    node.malformations.head? = some cause ↔
      ∃ earlier entry later, node = earlier ++ entry :: later
        ∧ (∀ other ∈ earlier, entryMalformations other = [])
        ∧ (entryMalformations entry).head? = some cause := by
  rw [malformations, List.head?_flatMap, List.findSome?_eq_some_iff]
  simp only [List.head?_eq_none_iff]
  constructor
  · rintro ⟨earlier, entry, later, hnode, hentry, hearlier⟩
    exact ⟨earlier, entry, later, hnode, hearlier, hentry⟩
  · rintro ⟨earlier, entry, later, hnode, hearlier, hentry⟩
    exact ⟨earlier, entry, later, hnode, hentry, hearlier⟩

end Members

/-! ## Faults among findings -/

namespace Finding

/-- The faults among findings, in order. -/
def faults (findings : List Finding) : List Fault :=
  findings.filterMap fun
    | fault f => some f
    | notice _ => none

theorem firstFault?_eq_head? (findings : List Finding) :
    firstFault? findings = (faults findings).head? := by
  induction findings with
  | nil => rfl
  | cons finding rest ih =>
    cases finding with
    | fault f => rfl
    | notice n => exact ih

@[simp] theorem faults_append (a b : List Finding) : faults (a ++ b) = faults a ++ faults b :=
  List.filterMap_append

theorem faults_flatMap {α : Type} (l : List α) (f : α → List Finding) :
    faults (l.flatMap f) = l.flatMap fun a => faults (f a) :=
  List.filterMap_flatMap

@[simp] theorem faults_map_fault {α : Type} (l : List α) (f : α → Fault) :
    faults (l.map fun a => fault (f a)) = l.map f := by
  simp [faults, List.filterMap_map]

@[simp] theorem faults_map_notice (l : List Notice) : faults (l.map notice) = [] := by
  simp [faults, List.filterMap_map]

end Finding

namespace Branch

/-- A branch gives notices and no faults. -/
@[simp] theorem faults_notices (branch : Branch) (inner : Block) :
    Finding.faults (branch.notices inner) = [] := by
  cases branch with
  | nested key => rfl
  | under rule condition =>
    simp only [notices, Block.conditionNotices]
    split
    · exact Finding.faults_map_notice _
    · rfl

end Branch

/-- The faults of a style object, node by node. -/
theorem Block.faults_findings (path : List String) (style : Members) :
    Finding.faults ((ofMembers style).findings path) =
      style.nodes.flatMap fun (address, node) =>
        node.malformations.map fun cause => ⟨cause, path ++ address.flatMap Branch.keys⟩ := by
  induction style using Members.treeInduction generalizing path with
  | step style ih =>
    rw [findings_ofMembers, Members.nodes_eq, Finding.faults_append, Finding.faults_map_fault,
      Finding.faults_flatMap, List.flatMap_cons, List.flatMap_assoc]
    simp only [List.flatMap_nil, List.append_nil, Finding.faults_append, Branch.faults_notices]
    congr 1
    refine List.flatMap_congr fun child hchild => ?_
    rw [ih child hchild, List.flatMap_map]
    simp only [List.flatMap_cons, List.append_assoc]

/-! ## The fault of a style object -/

namespace Style

theorem compile_outcome_error_iff_firstFault? {className : String} {style : Members}
    {fault : Fault} :
    (compile className style).outcome = .error fault ↔
      Finding.firstFault? ((Block.ofMembers style).findings [className]) = some fault := by
  simp only [compile, compileFor, Report.ofFindings]
  cases Finding.firstFault? ((Block.ofMembers style).findings [className]) <;> simp

theorem compile_outcome_error_iff_firstMalformed {className : String} {style : Members}
    {fault : Fault} :
    (compile className style).outcome = .error fault ↔
      ∃ path entry cause, style.FirstMalformed path entry cause
        ∧ fault = ⟨cause, className :: path.flatMap Branch.keys⟩ := by
  rw [compile_outcome_error_iff_firstFault?, Finding.firstFault?_eq_head?, Block.faults_findings,
    List.head?_flatMap, List.findSome?_eq_some_iff]
  simp only [List.head?_map, Option.map_eq_some_iff, Option.map_eq_none_iff,
    List.head?_eq_none_iff, Members.head?_malformations_eq_some_iff]
  constructor
  · rintro ⟨before, ⟨path, node⟩, after, hnodes, ⟨cause, hcause, rfl⟩, hbefore⟩
    obtain ⟨earlier, entry, later, hnode, hearlier, hentry⟩ := hcause
    exact ⟨path, entry, cause,
      ⟨before, node, after, earlier, later, hnodes, hbefore, hnode, hearlier, hentry⟩, rfl⟩
  · rintro ⟨path, entry, cause, hfirst, rfl⟩
    obtain ⟨before, node, after, earlier, later, hnodes, hbefore, hnode, hearlier, hentry⟩ :=
      hfirst
    exact ⟨before, (path, node), after, hnodes,
      ⟨cause, ⟨earlier, entry, later, hnode, hearlier, hentry⟩, rfl⟩, hbefore⟩

/-- A style object compiles exactly if its tree is well formed. -/
theorem compile_outcome_error_iff_not_wellFormed {className : String} {style : Members} :
    (∃ fault, (compile className style).outcome = .error fault) ↔ ¬ style.WellFormed := by
  simp only [compile_outcome_error_iff_firstFault?, Finding.firstFault?_eq_head?,
    Block.faults_findings]
  rw [← Option.isSome_iff_exists, List.isSome_head?, Members.WellFormed,
    Members.everywhere_iff_nodes]
  simp [List.flatMap_eq_nil_iff]

theorem compile_outcome_of_wellFormed {style : Members} (h : style.WellFormed)
    (className : String) :
    (compile className style).outcome =
      .ok ((Block.ofMembers style).rules ("." ++ className)) := by
  cases houtcome : (compile className style).outcome with
  | error fault =>
    exact absurd h (compile_outcome_error_iff_not_wellFormed.mp ⟨fault, houtcome⟩)
  | ok rules =>
    simp only [compile, compileFor, Report.ofFindings] at houtcome
    split at houtcome
    · cases houtcome
    · rw [← houtcome]

theorem wellFormed_of_compile_outcome {className : String} {style : Members} {rules : List Rule}
    (h : (compile className style).outcome = .ok rules) : style.WellFormed := by
  by_contra hmalformed
  obtain ⟨fault, hfault⟩ : ∃ fault, (compile className style).outcome = .error fault :=
    compile_outcome_error_iff_not_wellFormed.mpr hmalformed
  rw [h] at hfault
  cases hfault

/-- **Which style objects are refused, and for what.** A style object does not compile exactly if
a node that can be reached in it has a malformed entry. The fault is then that of the first
malformed entry of the first malformed node, it has that entry's key, and its path is the class
name followed by the keys from the root to that node. -/
theorem compile_outcome_error_iff (className : String) (style : Members) :
    ((∃ fault, (compile className style).outcome = .error fault) ↔
      ∃ path node entry cause, style.Reaches path node ∧ entry ∈ node
        ∧ Members.Malformed entry cause)
    ∧ ∀ fault, (compile className style).outcome = .error fault ↔
      ∃ path entry cause, style.FirstMalformed path entry cause
        ∧ Members.Malformed entry cause
        ∧ fault = ⟨cause, className :: path.flatMap Branch.keys⟩
        ∧ fault.key? = some entry.1 := by
  constructor
  · rw [compile_outcome_error_iff_not_wellFormed, Members.WellFormed, Members.Everywhere]
    simp only [not_forall, exists_prop]
    constructor
    · rintro ⟨path, node, hreach, hne⟩
      obtain ⟨entry, cause, hentry, hcause⟩ := Members.malformations_ne_nil_iff.mp hne
      exact ⟨path, node, entry, cause, hreach, hentry, hcause⟩
    · rintro ⟨path, node, entry, cause, hreach, hentry, hcause⟩
      exact ⟨path, node, hreach,
        Members.malformations_ne_nil_iff.mpr ⟨entry, cause, hentry, hcause⟩⟩
  · intro fault
    rw [compile_outcome_error_iff_firstMalformed]
    constructor
    · rintro ⟨path, entry, cause, hfirst, rfl⟩
      obtain ⟨before, node, after, earlier, later, -, -, -, -, hhead⟩ := id hfirst
      have hcause := Members.mem_entryMalformations_iff.mp (List.mem_of_mem_head? hhead)
      exact ⟨path, entry, cause, hfirst, hcause, rfl, hcause.key?⟩
    · rintro ⟨path, entry, cause, hfirst, -, hfault, -⟩
      exact ⟨path, entry, cause, hfirst, hfault⟩

end Style

end Cascade
