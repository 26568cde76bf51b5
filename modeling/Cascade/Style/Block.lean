import Cascade.Fault

/-!
# Sorted style objects

A style object lists entries of several kinds in any order. Rules come out in a fixed order of
kinds, so the entries are first sorted into buckets; inside a bucket they keep their order. Null
entries and null conditions are dropped. Entries that are malformed go into a bucket of their own,
as causes, in the order in which they were listed.

`Buckets.ofMembers` sorts one object and leaves the objects inside it as they are;
`Block.ofMembers` sorts a whole tree. `entries_ofMembers` says that the second is the first at
every node.
-/

namespace Cascade

/-- The entries of one style object by kind; inner objects are of type `α`. -/
structure Buckets (α : Type) where
  malformed : List Cause := []
  declarations : Members := []
  nested : List (String × α) := []
  container : List (String × α) := []
  media : List (String × α) := []
  supports : List (String × α) := []

namespace Buckets

variable {α β : Type}

/-- The conditional styles under this rule. -/
def group (b : Buckets α) : AtRule → List (String × α)
  | .container => b.container
  | .media => b.media
  | .supports => b.supports

/-- Puts a property in front. -/
def addProperty (key : String) (value : Value) (b : Buckets α) : Buckets α :=
  match value with
  | .object _ => { b with malformed := .propertyHoldsObject key :: b.malformed }
  | _ => { b with declarations := (key, value) :: b.declarations }

/-- Puts a nested selector in front; `inner` is its value if that is an object. -/
def addNested (key : String) (found : Value.Kind) (inner : Option α) (b : Buckets α) :
    Buckets α :=
  match inner with
  | none => { b with malformed := .nestedNotObject key found :: b.malformed }
  | some inner => { b with nested := (key, inner) :: b.nested }

/-- Puts conditional styles in front; `inner` is their value if that is an object, and comes with
the causes of its malformed conditions. -/
def addGroup (rule : AtRule) (found : Value.Kind)
    (inner : Option (List Cause × List (String × α))) (b : Buckets α) : Buckets α :=
  match inner with
  | none => { b with malformed := .groupNotObject rule found :: b.malformed }
  | some (causes, conditions) =>
    let b := { b with malformed := causes ++ b.malformed }
    match rule with
    | .container => { b with container := conditions ++ b.container }
    | .media => { b with media := conditions ++ b.media }
    | .supports => { b with supports := conditions ++ b.supports }

def map (f : α → β) (b : Buckets α) : Buckets β where
  malformed := b.malformed
  declarations := b.declarations
  nested := b.nested.map fun (key, inner) => (key, f inner)
  container := b.container.map fun (key, inner) => (key, f inner)
  media := b.media.map fun (key, inner) => (key, f inner)
  supports := b.supports.map fun (key, inner) => (key, f inner)

@[simp] theorem map_addProperty (f : α → β) (key : String) (value : Value) (b : Buckets α) :
    (b.addProperty key value).map f = (b.map f).addProperty key value := by
  cases value <;> rfl

@[simp] theorem map_addNested (f : α → β) (key : String) (found : Value.Kind) (inner : Option α)
    (b : Buckets α) :
    (b.addNested key found inner).map f = (b.map f).addNested key found (inner.map f) := by
  cases inner <;> rfl

@[simp] theorem map_addGroup (f : α → β) (rule : AtRule) (found : Value.Kind)
    (inner : Option (List Cause × List (String × α))) (b : Buckets α) :
    (b.addGroup rule found inner).map f =
      (b.map f).addGroup rule found
        (inner.map fun (causes, conditions) =>
          (causes, conditions.map fun (condition, x) => (condition, f x))) := by
  cases inner with
  | none => rfl
  | some inner => cases rule <;> simp [addGroup, map]

end Buckets

/-- The causes in a group of conditions: whatever is neither null nor an object. -/
def conditionCauses (rule : AtRule) (conditions : Members) : List Cause :=
  conditions.filterMap fun (condition, value) =>
    match value with
    | .null => none
    | .object _ => none
    | other => some (.conditionNotObject rule condition other.kind)

/-- Sorts one style object. -/
def Buckets.ofMembers : Members → Buckets Members
  | [] => {}
  | (key, value) :: rest =>
    if value.isNull then ofMembers rest
    else
      match KeyKind.ofKey key with
      | .property => (ofMembers rest).addProperty key value
      | .nested => (ofMembers rest).addNested key value.kind value.members?
      | .group rule =>
        let inner := value.members?.map fun conditions =>
          (conditionCauses rule conditions,
            conditions.filterMap fun (condition, value) =>
              value.members?.map fun members => (condition, members))
        (ofMembers rest).addGroup rule value.kind inner

/-- The buckets of a style object at `path`, or its first fault. -/
def partition (members : Members) (path : List String) : Except Fault (Buckets Members) :=
  let buckets := Buckets.ofMembers members
  match buckets.malformed with
  | [] => .ok buckets
  | cause :: _ => .error ⟨cause, path⟩

/-- A style object sorted at every depth. -/
inductive Block where
  | mk (entries : Buckets Block)

namespace Block

def entries : Block → Buckets Block
  | mk entries => entries

@[simp] theorem entries_mk (b : Buckets Block) : (mk b).entries = b := rfl

mutual

/-- Sorts a style object and all objects inside it. -/
def ofMembers : List (String × Value) → Block
  | [] => mk {}
  | (key, value) :: rest =>
    if value.isNull then ofMembers rest
    else
      match KeyKind.ofKey key with
      | .property => mk ((ofMembers rest).entries.addProperty key value)
      | .nested => mk ((ofMembers rest).entries.addNested key value.kind (ofValue? value))
      | .group rule =>
        mk ((ofMembers rest).entries.addGroup rule value.kind (groupOf? rule value))
termination_by structural members => members

/-- The sorted form of a value that is an object. -/
def ofValue? : Value → Option Block
  | .object members => some (ofMembers members)
  | _ => none
termination_by structural value => value

/-- The conditions of a value that is an object, with the causes of the malformed ones. -/
def groupOf? (rule : AtRule) : Value → Option (List Cause × List (String × Block))
  | .object conditions => some (conditionCauses rule conditions, conditionsOf conditions)
  | _ => none
termination_by structural value => value

/-- The conditions that hold objects. -/
def conditionsOf : List (String × Value) → List (String × Block)
  | [] => []
  | (condition, value) :: rest =>
    match ofValue? value with
    | some inner => (condition, inner) :: conditionsOf rest
    | none => conditionsOf rest
termination_by structural conditions => conditions

end

theorem ofValue?_eq (value : Value) : ofValue? value = value.members?.map ofMembers := by
  cases value <;> rfl

theorem conditionsOf_eq (conditions : Members) :
    conditionsOf conditions =
      conditions.filterMap fun (condition, value) =>
        value.members?.map fun members => (condition, ofMembers members) := by
  induction conditions with
  | nil => rfl
  | cons entry rest ih =>
    obtain ⟨condition, value⟩ := entry
    cases value <;> simp [conditionsOf, ofValue?_eq, Value.members?, ih]

theorem groupOf?_eq (rule : AtRule) (value : Value) :
    groupOf? rule value =
      value.members?.map fun conditions => (conditionCauses rule conditions,
        conditions.filterMap fun (condition, value) =>
          value.members?.map fun members => (condition, ofMembers members)) := by
  cases value <;> simp [groupOf?, Value.members?, conditionsOf_eq]

/-- Sorting a tree sorts each of its style objects. -/
theorem entries_ofMembers (members : Members) :
    (ofMembers members).entries = (Buckets.ofMembers members).map ofMembers := by
  induction members with
  | nil => rfl
  | cons entry rest ih =>
    obtain ⟨key, value⟩ := entry
    simp only [ofMembers, Buckets.ofMembers]
    split
    · exact ih
    · split
      · simp [ih]
      · simp [ih, ofValue?_eq]
      · simp [ih, groupOf?_eq, List.map_filterMap, Function.comp_def]

end Block

end Cascade
