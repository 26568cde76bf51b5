import Cascade.Number.Double

/-!
# Values

What a style description is made of: the data of a JSON document. Members of an object keep their
order, because rules are emitted in it; whole numbers are unbounded and apart from floating-point
numbers, because the two are written differently.

A limit on the digits of a whole number stands at the reading of documents only
(`Json.maxIntegerDigits`). What a document holds can therefore be written, too. A longer number
can only come from elsewhere, and its text here is all of its digits, while a run time with the
same limit on writing would refuse it.
-/

namespace Cascade

inductive Value where
  | null
  | bool (b : Bool)
  | int (n : Int)
  | float (x : Double)
  | str (s : String)
  | list (items : List Value)
  | object (members : List (String × Value))
  deriving Repr, Inhabited

/-- The members of an object, in order. A key occurs once. -/
abbrev Members := List (String × Value)

namespace Members

/-- The value of the first member with this key. -/
def get? (members : Members) (key : String) : Option Value :=
  members.lookup key

/-- Gives the member a value where it stands, or adds it at the end. -/
def set (key : String) (value : Value) : Members → Members
  | [] => [(key, value)]
  | (k, v) :: rest => if k = key then (k, value) :: rest else (k, v) :: set key value rest

/-- Sets several members one after the other. -/
def setAll (members : Members) (changes : Members) : Members :=
  changes.foldl (fun ms (key, value) => ms.set key value) members

/-- The object made by listing members: a key that is listed again keeps its first place and takes
the last value. -/
def ofPairs (pairs : List (String × Value)) : Members :=
  setAll [] pairs

theorem mem_of_get? {members : Members} {key : String} {value : Value}
    (h : members.get? key = some value) : (key, value) ∈ members := by
  obtain ⟨before, after, hmembers, -⟩ := List.lookup_eq_some_iff.mp h
  rw [hmembers]
  exact List.mem_append_right before List.mem_cons_self

/-! ## Setting a member -/

theorem mem_set {key : String} {value : Value} {members : Members} {entry : String × Value}
    (h : entry ∈ members.set key value) : entry = (key, value) ∨ entry ∈ members := by
  induction members with
  | nil => exact .inl (List.mem_singleton.mp h)
  | cons first rest ih =>
    obtain ⟨k, v⟩ := first
    rw [set] at h
    split at h
    · rename_i hkey
      rcases List.mem_cons.mp h with rfl | h
      · exact .inl (by rw [hkey])
      · exact .inr (List.mem_cons_of_mem _ h)
    · rcases List.mem_cons.mp h with rfl | h
      · exact .inr List.mem_cons_self
      · exact (ih h).imp_right (List.mem_cons_of_mem _)

theorem set_set (key : String) (value other : Value) (members : Members) :
    (members.set key value).set key other = members.set key other := by
  induction members with
  | nil => simp [set]
  | cons first rest ih =>
    obtain ⟨k, v⟩ := first
    by_cases hkey : k = key
    · simp [set, hkey]
    · simp [set, hkey, ih]

theorem set_of_not_mem {key : String} {members : Members} (h : key ∉ members.map Prod.fst)
    (value : Value) : members.set key value = members ++ [(key, value)] := by
  induction members with
  | nil => rfl
  | cons first rest ih =>
    obtain ⟨k, v⟩ := first
    rw [List.map_cons, List.mem_cons, not_or] at h
    rw [set, if_neg (Ne.symm h.1), ih h.2, List.cons_append]

theorem map_fst_set_of_mem {key : String} {members : Members} (h : key ∈ members.map Prod.fst)
    (value : Value) : (members.set key value).map Prod.fst = members.map Prod.fst := by
  induction members with
  | nil => cases h
  | cons first rest ih =>
    obtain ⟨k, v⟩ := first
    by_cases hkey : k = key
    · simp [set, hkey]
    · have hrest : key ∈ rest.map Prod.fst := by simpa [Ne.symm hkey] using h
      simp only [set, hkey, if_false, List.map_cons, ih hrest]

/-- Setting a member makes no key occur twice. -/
theorem nodup_set {members : Members} (h : (members.map Prod.fst).Nodup) (key : String)
    (value : Value) : ((members.set key value).map Prod.fst).Nodup := by
  by_cases hkey : key ∈ members.map Prod.fst
  · rwa [map_fst_set_of_mem hkey]
  · rw [set_of_not_mem hkey, List.map_append, List.map_singleton, List.nodup_append]
    refine ⟨h, by simp, ?_⟩
    intro k hk other hother hsame
    obtain rfl := List.mem_singleton.mp hother
    exact hkey (hsame ▸ hk)

theorem setAll_of_nodup {members changes : Members}
    (h : ((members ++ changes).map Prod.fst).Nodup) :
    members.setAll changes = members ++ changes := by
  induction changes generalizing members with
  | nil => exact (List.append_nil members).symm
  | cons change rest ih =>
    obtain ⟨key, value⟩ := change
    have hkey : key ∉ members.map Prod.fst := by
      rw [List.map_append, List.nodup_append] at h
      exact fun hmem => h.2.2 key hmem key List.mem_cons_self rfl
    have hnext :
        setAll members ((key, value) :: rest) = (members.set key value).setAll rest := rfl
    rw [List.append_cons] at h
    rw [hnext, set_of_not_mem hkey, ih h, List.append_assoc, List.singleton_append]

/-- Members that are listed with different keys are the object's members as they are. -/
theorem ofPairs_of_nodup {pairs : List (String × Value)} (h : (pairs.map Prod.fst).Nodup) :
    ofPairs pairs = pairs := by
  rw [ofPairs, setAll_of_nodup (by rwa [List.nil_append]), List.nil_append]

end Members

/-- The kind of a value, as messages name it. -/
inductive Value.Kind where
  | null | bool | int | float | str | list | object
  deriving DecidableEq, Repr

namespace Value

def Kind.name : Kind → String
  | .null => "NoneType"
  | .bool => "bool"
  | .int => "int"
  | .float => "float"
  | .str => "str"
  | .list => "list"
  | .object => "dict"

def kind : Value → Kind
  | .null => .null
  | .bool _ => .bool
  | .int _ => .int
  | .float _ => .float
  | .str _ => .str
  | .list _ => .list
  | .object _ => .object

/-- The members of an object; other values have none. -/
def members? : Value → Option Members
  | .object members => some members
  | _ => none

def isNull : Value → Bool
  | .null => true
  | _ => false

/-- Whether the value counts as given: null, false, zero and whatever is empty do not. -/
def isTruthy : Value → Bool
  | .null => false
  | .bool b => b
  | .int n => n != 0
  | .float x => ! x.isZero
  | .str s => ! s.isEmpty
  | .list items => ! items.isEmpty
  | .object members => ! members.isEmpty

end Value

end Cascade
