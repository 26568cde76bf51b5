import Cascade.Json.Reader

/-!
# Keys of a document

Members of an object are set one after the other while a document is read, so no key occurs twice
in an object, whatever the text repeats. `State.KeysDistinct` is the invariant of the reader: it
holds of the values that are read already, of the lists and objects that are open, and each step
keeps it.
-/

namespace Cascade

/-- No object in the value, at any depth, has a key twice. -/
inductive Value.KeysDistinct : Value → Prop
  | null : KeysDistinct .null
  | bool (b : Bool) : KeysDistinct (.bool b)
  | int (n : Int) : KeysDistinct (.int n)
  | float (x : Double) : KeysDistinct (.float x)
  | str (s : String) : KeysDistinct (.str s)
  | list {items : List Value} (h : ∀ item ∈ items, KeysDistinct item) : KeysDistinct (.list items)
  | object {members : List (String × Value)} (hkeys : (members.map Prod.fst).Nodup)
      (h : ∀ entry ∈ members, KeysDistinct entry.2) : KeysDistinct (.object members)

/-- The members of an object in which no key occurs twice, at any depth. -/
structure Members.KeysDistinct (members : Members) : Prop where
  keys : (members.map Prod.fst).Nodup
  values : ∀ entry ∈ members, entry.2.KeysDistinct

theorem Value.keysDistinct_object_iff {members : Members} :
    (Value.object members).KeysDistinct ↔ members.KeysDistinct :=
  ⟨fun | .object hkeys h => ⟨hkeys, h⟩, fun h => .object h.keys h.values⟩

namespace Members

theorem keysDistinct_nil : KeysDistinct [] :=
  ⟨List.Pairwise.nil, nofun⟩

theorem KeysDistinct.set {members : Members} (h : members.KeysDistinct) (key : String)
    {value : Value} (hvalue : value.KeysDistinct) : (members.set key value).KeysDistinct where
  keys := nodup_set h.keys key value
  values := by
    intro entry hentry
    rcases mem_set hentry with rfl | hentry
    · exact hvalue
    · exact h.values entry hentry

theorem KeysDistinct.get? {members : Members} (h : members.KeysDistinct) {key : String}
    {value : Value} (hget : members.get? key = some value) : value.KeysDistinct :=
  h.values (key, value) (mem_of_get? hget)

end Members

namespace Json

/-! ## Tokens -/

/-- Literals and numbers have no keys. -/
def Token.ScalarOnly (t : Token) : Prop :=
  ∀ v, t = .scalar v → v.KeysDistinct

theorem lexText_scalarOnly (rest : List Char) : (lexText rest).1.ScalarOnly := by
  intro v hv
  rw [lexText] at hv
  split at hv <;> cases hv

theorem lexUnsigned_scalarOnly {negative : Bool} {cs : List Char} {found : Token × Nat}
    (h : lexUnsigned negative cs = some found) : found.1.ScalarOnly := by
  intro v hv
  grind [lexUnsigned, Value.KeysDistinct]

theorem literals_keysDistinct : ∀ literal ∈ literals, literal.2.KeysDistinct := by
  simp [literals, Value.KeysDistinct.null, Value.KeysDistinct.bool, Value.KeysDistinct.float]

theorem unknown_scalarOnly : Token.unknown.ScalarOnly :=
  nofun

theorem lexScalar_scalarOnly (cs : List Char) : (lexScalar cs).1.ScalarOnly := by
  simp only [lexScalar]
  split
  · rename_i word value hfind
    rintro v ⟨⟩
    exact literals_keysDistinct _ (List.mem_of_find?_eq_some hfind)
  · split
    · rename_i rest _
      cases hnumber : lexUnsigned true rest with
      | none => exact unknown_scalarOnly
      | some found =>
        have hfound := lexUnsigned_scalarOnly hnumber
        exact hfound
    · cases hnumber : lexUnsigned false cs with
      | none => exact unknown_scalarOnly
      | some found => exact lexUnsigned_scalarOnly hnumber

theorem lexToken_scalarOnly (c : Char) (rest : List Char) :
    (lexToken c rest).1.ScalarOnly := by
  fun_cases lexToken c rest
  case case7 => exact lexText_scalarOnly rest
  case case8 => exact lexScalar_scalarOnly _
  all_goals exact nofun

theorem lexFrom_scalarOnly (position skip : Nat) (text : List Char) :
    ∀ placed ∈ lexFrom position skip text, placed.token.ScalarOnly := by
  fun_induction lexFrom position skip text with
  | case1 => exact nofun
  | case2 position skip c rest ih => exact ih
  | case3 position c rest hspace ih => exact ih
  | case4 position c rest hspace token length htoken ih =>
    refine List.forall_mem_cons.mpr ⟨?_, ih⟩
    have := lexToken_scalarOnly c rest
    rwa [htoken] at this

/-! ## The reader -/

def Frame.KeysDistinct : Frame → Prop
  | list items => ∀ item ∈ items, item.KeysDistinct
  | object members _ => members.KeysDistinct

namespace State

/-- What the reader has read so far has no key twice. -/
def KeysDistinct : State → Prop
  | value _ stack => ∀ frame ∈ stack, frame.KeysDistinct
  | name _ members stack => members.KeysDistinct ∧ ∀ frame ∈ stack, frame.KeysDistinct
  | colon members _ stack => members.KeysDistinct ∧ ∀ frame ∈ stack, frame.KeysDistinct
  | after v stack => v.KeysDistinct ∧ ∀ frame ∈ stack, frame.KeysDistinct

theorem step_keysDistinct {state next : State} {placed : Placed} (h : state.KeysDistinct)
    (hscalar : placed.token.ScalarOnly) (hstep : state.step placed = .ok next) :
    next.KeysDistinct := by
  revert hstep
  fun_cases step state placed <;> rintro ⟨⟩
  -- A value must come.
  case case1 htoken => exact ⟨hscalar _ htoken, h⟩
  case case2 => exact ⟨.str _, h⟩
  case case5 => exact List.forall_mem_cons.mpr ⟨List.forall_mem_nil _, h⟩
  case case6 => exact ⟨Members.keysDistinct_nil, h⟩
  case case7 =>
    obtain ⟨hitems, hstack⟩ := List.forall_mem_cons.mp h
    exact ⟨.list fun item hitem => hitems item (List.mem_reverse.mp hitem), hstack⟩
  -- A member's name must come, or the colon behind it.
  case case8 => exact h
  case case10 => exact ⟨Value.keysDistinct_object_iff.mpr h.1, h.2⟩
  case case11 => exact List.forall_mem_cons.mpr h
  -- A value has been read.
  all_goals
    obtain ⟨hvalue, hframes⟩ := h
    obtain ⟨hframe, hstack⟩ := List.forall_mem_cons.mp hframes
  case case12 =>
    exact List.forall_mem_cons.mpr ⟨List.forall_mem_cons.mpr ⟨hvalue, hframe⟩, hstack⟩
  case case13 =>
    refine ⟨.list fun item hitem => ?_, hstack⟩
    exact List.forall_mem_cons.mpr ⟨hvalue, hframe⟩ item (List.mem_reverse.mp hitem)
  case case14 => exact ⟨hframe.set _ hvalue, hstack⟩
  case case15 => exact ⟨Value.keysDistinct_object_iff.mpr (hframe.set _ hvalue), hstack⟩

theorem run_keysDistinct {state next : State} {placed : List Placed} (h : state.KeysDistinct)
    (hscalar : ∀ p ∈ placed, p.token.ScalarOnly) (hrun : state.run placed = .ok next) :
    next.KeysDistinct := by
  induction placed generalizing state with
  | nil =>
    obtain rfl := Except.ok.inj hrun
    exact h
  | cons p rest ih =>
    obtain ⟨hp, hrest⟩ := List.forall_mem_cons.mp hscalar
    rw [run] at hrun
    split at hrun
    · rename_i between hstep
      exact ih (step_keysDistinct h hp hstep) hrest hrun
    · cases hrun

end State

/-- In a document that was read no key occurs twice in an object, at any depth. -/
theorem read_keysDistinct {text : List Char} {document : Value} (h : read text = .ok document) :
    document.KeysDistinct := by
  rw [read] at h
  split at h
  · cases h
  split at h
  · rename_i last hrun
    have hfirst : (State.value false []).KeysDistinct := List.forall_mem_nil _
    have hlast := State.run_keysDistinct hfirst (lexFrom_scalarOnly 0 0 text) hrun
    revert h
    fun_cases State.finish text.length last <;> rintro ⟨⟩
    exact hlast.1
  · cases h

end Json

end Cascade
