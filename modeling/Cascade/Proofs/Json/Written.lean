import Cascade.Json.Reader
import Cascade.Proofs.Json.Text
import Cascade.Text.Joined

/-!
# Written JSON read back

The reader takes the tokens of a text one by one, so a text is known by how it moves the reader
on: `Moves text state next` says that it takes the reader from one state to another, wherever it
stands and whatever follows. Texts that stand behind one another move it one after the other
(`Moves.append`), and a written object is put together from such texts: its braces, its line ends
and margins, and for each member the name, the colon and the value.
-/

namespace Cascade.Json

/-! ## How a text moves the reader -/

theorem State.run_append {state next : State} {a : List Placed} (h : state.run a = .ok next)
    (b : List Placed) : state.run (a ++ b) = next.run b := by
  induction a generalizing state with
  | nil =>
    obtain rfl := Except.ok.inj h
    rfl
  | cons placed a ih =>
    rw [run] at h
    rw [List.cons_append, run]
    split at h
    · exact ih h
    · cases h

/-- The rest of a token is passed over. -/
theorem lexFrom_skip (position : Nat) (a rest : List Char) :
    lexFrom position a.length (a ++ rest) = lexFrom (position + a.length) 0 rest := by
  induction a generalizing position with
  | nil => rfl
  | cons c a ih =>
    rw [List.length_cons, List.cons_append, lexFrom, ih, Nat.add_right_comm, Nat.add_assoc]

/-- The text takes the reader from one state to another, wherever it stands. -/
def Moves (text : List Char) (state next : State) : Prop :=
  ∀ position rest, ∃ placed,
    lexFrom position 0 (text ++ rest) = placed ++ lexFrom (position + text.length) 0 rest
      ∧ state.run placed = .ok next

namespace Moves

variable {state next last : State}

theorem nil (state : State) : Moves [] state state :=
  fun _ _ => ⟨[], rfl, rfl⟩

theorem append {a b : List Char} (ha : Moves a state next) (hb : Moves b next last) :
    Moves (a ++ b) state last := by
  intro position rest
  obtain ⟨first, hfirst, hrun⟩ := ha position (b ++ rest)
  obtain ⟨second, hsecond, hlast⟩ := hb (position + a.length) rest
  refine ⟨first ++ second, ?_, ?_⟩
  · rw [List.append_assoc, hfirst, hsecond, List.append_assoc, List.length_append, Nat.add_assoc]
  · rw [State.run_append hrun, hlast]

theorem space {c : Char} (hspace : isSpace c = true) (state : State) : Moves [c] state state := by
  intro position rest
  exact ⟨[], by simp [lexFrom, hspace], rfl⟩

theorem spaces (n : Nat) (state : State) : Moves (List.replicate n ' ') state state := by
  induction n with
  | zero => exact nil state
  | succ n ih => exact (space rfl state).append ih

theorem token {c : Char} {tail : List Char} {t : Token} (hspace : isSpace c = false)
    (hlex : ∀ rest, lexToken c (tail ++ rest) = (t, tail.length + 1))
    (hstep : ∀ position, state.step ⟨t, position⟩ = .ok next) : Moves (c :: tail) state next := by
  intro position rest
  refine ⟨[⟨t, position⟩], ?_, ?_⟩
  · simp only [List.cons_append, List.nil_append, lexFrom, hspace, Bool.false_eq_true, if_false,
      hlex, Nat.add_sub_cancel, lexFrom_skip, List.length_cons]
    rw [Nat.add_right_comm, Nat.add_assoc]
  · rw [State.run, hstep]
    rfl

/-- A token of one character. -/
theorem mark {c : Char} {t : Token} (hspace : isSpace c = false)
    (hlex : ∀ rest, lexToken c rest = (t, 1))
    (hstep : ∀ position, state.step ⟨t, position⟩ = .ok next) : Moves [c] state next :=
  token hspace hlex hstep

/-- A written string is one token. -/
theorem text (s : String) (hstep : ∀ position, state.step ⟨.text s, position⟩ = .ok next) :
    Moves (writeText s).toList state next := by
  rw [writeText, String.toList_ofList, List.cons_append]
  refine token rfl (fun rest => ?_) hstep
  rw [List.append_assoc]
  simp [lexToken, lexText_escape]

end Moves

/-! ## Written values -/

/-- The text is read as this value, wherever a value may stand. -/
def ReadsAs (text : List Char) (v : Value) : Prop :=
  ∀ opened stack, Moves text (.value opened stack) (.after v stack)

theorem readsAs_writeText (s : String) : ReadsAs (writeText s).toList (.str s) :=
  fun _ _ => Moves.text s fun _ => rfl

/-- A member of a written object: on a line of its own, without the line's end. -/
def memberLine (indent : Nat) (name value : String) : List Char :=
  List.replicate (indent + 2) ' ' ++ (writeText name).toList ++ [':', ' '] ++ value.toList

/-- What stands behind the last member of a written object. -/
def closing (indent : Nat) : List Char :=
  '\n' :: List.replicate indent ' ' ++ ['\x7d']

theorem toList_writeObject (indent : Nat) {members : List (String × String)} (h : members ≠ []) :
    (writeObject indent members).toList =
      ['\x7b', '\n'] ++ ([',', '\n'].intercalate (members.map fun (name, value) =>
        memberLine indent name value) ++ closing indent) := by
  have hne : members.isEmpty = false := by simpa using h
  simp [writeObject, hne, memberLine, closing, String.toList_intercalate, Function.comp_def]

theorem written_writeObject (indent : Nat) {members : List (String × String)}
    (h : ∀ member ∈ members, ∀ c ∈ member.2.toList, Written c) :
    ∀ c ∈ (writeObject indent members).toList, Written c := by
  have hspaces (n : Nat) : ∀ c ∈ List.replicate n ' ', Written c :=
    fun c hc => (List.eq_of_mem_replicate hc).symm ▸ (by decide)
  by_cases hne : members = []
  · subst hne
    simp [writeObject, Written]
  · rw [toList_writeObject indent hne]
    refine List.forall_mem_append.mpr ⟨by simp [Written], List.forall_mem_append.mpr ⟨?_, ?_⟩⟩
    · refine Text.forall_mem_intercalate (by simp [Written]) fun line hline => ?_
      obtain ⟨⟨name, value⟩, hmember, rfl⟩ := List.mem_map.mp hline
      simp only [memberLine, List.forall_mem_append]
      exact ⟨⟨⟨hspaces _, written_writeText name⟩, by simp [Written]⟩, h _ hmember⟩
    · simp only [closing, List.cons_append, List.forall_mem_cons, List.forall_mem_append]
      exact ⟨.inl rfl, hspaces indent, by simp [Written]⟩

namespace Moves

variable {stack : List Frame}

theorem line (indent : Nat) {name value : String} {v : Value} (h : ReadsAs value.toList v)
    (opened : Bool) (members : Members) :
    Moves (memberLine indent name value) (.name opened members stack)
      (.after v (.object members name :: stack)) := by
  have hname : Moves (writeText name).toList (.name opened members stack)
      (.colon members name stack) := text name fun _ => rfl
  have hcolon : Moves [':', ' '] (.colon members name stack)
      (.value false (.object members name :: stack)) :=
    (mark rfl (fun _ => rfl) fun _ => rfl).append (space rfl _)
  exact (((spaces _ _).append hname).append hcolon).append (h _ _)

theorem close (indent : Nat) (members : Members) (name : String) (v : Value) :
    Moves (closing indent) (.after v (.object members name :: stack))
      (.after (.object (members.set name v)) stack) := by
  have hbrace : Moves ['\x7d'] (.after v (.object members name :: stack))
      (.after (.object (members.set name v)) stack) :=
    mark rfl (fun _ => rfl) fun _ => rfl
  exact ((space rfl _).append (spaces indent _)).append hbrace

/-- The members are set one after the other. -/
theorem members (indent : Nat) {entries : List (String × String × Value)} (hne : entries ≠ [])
    (h : ∀ entry ∈ entries, ReadsAs entry.2.1.toList entry.2.2) (opened : Bool)
    (before : Members) :
    Moves ([',', '\n'].intercalate (entries.map fun (name, value, _) =>
        memberLine indent name value) ++ closing indent)
      (.name opened before stack)
      (.after (.object (before.setAll (entries.map fun (name, _, v) => (name, v)))) stack) := by
  -- Behind a comma the reader is where it began, with one more member set.
  induction entries generalizing opened before with
  | nil => exact absurd rfl hne
  | cons entry rest ih =>
    obtain ⟨name, value, v⟩ := entry
    obtain ⟨hvalue, hrest⟩ := List.forall_mem_cons.mp h
    have hline : Moves (memberLine indent name value) (.name opened before stack)
        (.after v (.object before name :: stack)) := line indent hvalue opened before
    cases rest with
    | nil =>
      rw [List.map_singleton, List.intercalate_singleton]
      exact hline.append (close indent before name v)
    | cons next later =>
      rw [List.map_cons, List.map_cons, List.intercalate_cons_cons, List.append_assoc]
      have hcomma : Moves [',', '\n'] (.after v (.object before name :: stack))
          (.name false (before.set name v) stack) :=
        (mark rfl (fun _ => rfl) fun _ => rfl).append (space rfl _)
      exact (hline.append hcomma).append (ih (List.cons_ne_nil _ _) hrest false _)

end Moves

/-- A written object is read as the object that its members make. -/
theorem readsAs_writeObject (indent : Nat) (entries : List (String × String × Value))
    (h : ∀ entry ∈ entries, ReadsAs entry.2.1.toList entry.2.2) :
    ReadsAs (writeObject indent (entries.map fun (name, value, _) => (name, value))).toList
      (.object (Members.ofPairs (entries.map fun (name, _, v) => (name, v)))) := by
  intro opened stack
  have hopen : Moves ['\x7b'] (.value opened stack) (.name true [] stack) :=
    .mark rfl (fun _ => rfl) fun _ => rfl
  by_cases hne : entries = []
  · subst hne
    have hclose : Moves ['\x7d'] (.name true [] stack) (.after (.object []) stack) :=
      .mark rfl (fun _ => rfl) fun _ => rfl
    have hempty : (writeObject indent []).toList = ['\x7b'] ++ ['\x7d'] := by simp [writeObject]
    rw [List.map_nil, List.map_nil, hempty]
    exact hopen.append hclose
  · rw [toList_writeObject indent (by simpa using hne), List.map_map]
    exact (hopen.append (.space rfl _)).append (.members indent hne h true [])

/-- A text that is read as a value is read as it too if an end of line follows. -/
theorem read_of_readsAs {text : List Char} {v : Value} (h : ReadsAs text v)
    (hmark : '\ufeff' ∉ text) : read (text ++ ['\n']) = .ok v := by
  have hend : Moves ['\n'] (.after v []) (.after v []) := .space rfl _
  obtain ⟨placed, hlex, hrun⟩ := ((h false []).append hend) 0 []
  have hhead : (text ++ ['\n']).head? ≠ some '\ufeff' := by
    intro hhead
    rcases List.mem_append.mp (List.mem_of_mem_head? hhead) with hmem | hmem
    · exact hmark hmem
    · exact absurd hmem (by decide)
  rw [List.append_nil, lexFrom, List.append_nil] at hlex
  rw [read, if_neg hhead, tokens, hlex, hrun]
  rfl

end Cascade.Json
