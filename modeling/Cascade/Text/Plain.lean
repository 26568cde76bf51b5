/-!
# Plain text

Text comes in with line ends of three kinds: a line feed, a carriage return or both.
`unifyNewlines` turns each of the three into a single line feed, so that later stages know one
line end only.

It goes out without control sequences. An escape character and an opening bracket, then digits,
semicolons and question marks, then one ASCII letter, tell a terminal to change a colour or to
move its cursor; a file has no use for them. `dropControlSequences` leaves out each sequence that
stands in a text, from left to right and once: what comes together around a sequence that was left
out is not looked at again, and an opening without a proper end is ordinary text.
-/

namespace Cascade.Text

/-! ## Line ends -/

def unifyNewlines : List Char → List Char
  | [] => []
  | '\r' :: '\n' :: rest => '\n' :: unifyNewlines rest
  | '\r' :: rest => '\n' :: unifyNewlines rest
  | c :: rest => c :: unifyNewlines rest

theorem unifyNewlines_of_not_mem {s : List Char} (h : '\r' ∉ s) : unifyNewlines s = s := by
  fun_induction unifyNewlines s with
  | case1 => rfl
  | case2 => simp at h
  | case3 => simp at h
  | case4 c rest _ _ ih => rw [ih (fun hr => h (List.mem_cons_of_mem c hr))]

/-! ## Control sequences -/

/-- Whether a character may stand between the opening of a control sequence and its letter. -/
def isControlParameter (c : Char) : Bool :=
  c.isDigit || c = ';' || c = '?'

/-- What follows the control sequence at the front of a text, if one stands there. -/
def afterControlSequence? : List Char → Option (List Char)
  | '\x1b' :: '[' :: rest =>
    match rest.dropWhile isControlParameter with
    | letter :: rest => if letter.isAlpha then some rest else none
    | [] => none
  | _ => none

theorem length_afterControlSequence?_lt {s rest : List Char}
    (h : afterControlSequence? s = some rest) : rest.length < s.length := by
  revert h
  fun_cases afterControlSequence? s with
  | case1 all letter last hdrop hletter =>
    intro h
    have hle : (all.dropWhile isControlParameter).length ≤ all.length :=
      (List.dropWhile_sublist isControlParameter).length_le
    rw [hdrop] at hle
    obtain rfl := Option.some.inj h
    simp only [List.length_cons] at hle ⊢
    omega
  | case2 => simp
  | case3 => simp
  | case4 => simp

/-- A control sequence starts with the escape character. -/
theorem afterControlSequence?_cons_of_ne {c : Char} (h : c ≠ '\x1b') (s : List Char) :
    afterControlSequence? (c :: s) = none := by
  rw [afterControlSequence?]
  intro rest hs
  exact absurd (List.cons.inj hs).1 h

def dropControlSequences (s : List Char) : List Char :=
  match _ : afterControlSequence? s with
  | some rest => dropControlSequences rest
  | none =>
    match s with
    | [] => []
    | c :: rest => c :: dropControlSequences rest
termination_by s.length
decreasing_by
  · exact length_afterControlSequence?_lt ‹_›
  · simp

theorem dropControlSequences_nil : dropControlSequences [] = [] := by
  rw [dropControlSequences]
  rfl

theorem dropControlSequences_cons {c : Char} {s : List Char}
    (h : afterControlSequence? (c :: s) = none) :
    dropControlSequences (c :: s) = c :: dropControlSequences s := by
  rw [dropControlSequences]
  split
  · simp_all
  · rfl

/-! ## What is left out -/

/-- Text without an escape character is not changed. -/
theorem dropControlSequences_of_not_mem {s : List Char} (h : '\x1b' ∉ s) :
    dropControlSequences s = s := by
  induction s with
  | nil => exact dropControlSequences_nil
  | cons c s ih =>
    rw [List.mem_cons, not_or] at h
    rw [dropControlSequences_cons (afterControlSequence?_cons_of_ne (Ne.symm h.1) s), ih h.2]

/-- Nor is such text in front of another. -/
theorem dropControlSequences_append {p : List Char} (h : '\x1b' ∉ p) (s : List Char) :
    dropControlSequences (p ++ s) = p ++ dropControlSequences s := by
  induction p with
  | nil => rfl
  | cons c p ih =>
    rw [List.mem_cons, not_or] at h
    rw [List.cons_append,
      dropControlSequences_cons (afterControlSequence?_cons_of_ne (Ne.symm h.1) (p ++ s)), ih h.2,
      List.cons_append]

theorem length_dropControlSequences_le (s : List Char) :
    (dropControlSequences s).length ≤ s.length := by
  fun_induction dropControlSequences s with
  | case1 s rest hafter ih =>
    exact Nat.le_trans ih (Nat.le_of_lt (length_afterControlSequence?_lt hafter))
  | case2 => exact Nat.le_refl _
  | case3 c rest hafter ih => exact Nat.succ_le_succ ih

/-- No control sequence stands at any place in the text. -/
def ControlFree (s : List Char) : Prop :=
  ∀ later, later <:+ s → afterControlSequence? later = none

/-- Text without control sequences is not changed, and all other text is. -/
theorem dropControlSequences_eq_self_iff {s : List Char} :
    dropControlSequences s = s ↔ ControlFree s := by
  simp only [ControlFree]
  fun_induction dropControlSequences s with
  | case1 s rest hafter ih =>
    constructor
    · intro hself
      -- What is left is no longer than `rest`, and `rest` is shorter than the text.
      have hle := length_dropControlSequences_le rest
      rw [hself] at hle
      exact absurd (length_afterControlSequence?_lt hafter) (Nat.not_lt.mpr hle)
    · intro hnone
      rw [hnone s (List.suffix_refl s)] at hafter
      cases hafter
  | case2 hafter =>
    simp only [List.suffix_nil, forall_eq, true_iff]
    exact hafter
  | case3 c rest hafter ih =>
    simp only [List.cons.injEq, true_and, ih, List.suffix_cons_iff, forall_eq_or_imp, hafter]

end Cascade.Text
