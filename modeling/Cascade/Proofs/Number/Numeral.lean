import Cascade.Proofs.Number.Base36
import Mathlib.Algebra.Order.Group.Nat
import Mathlib.Data.List.Induction
import Mathlib.Tactic.Ring

/-!
# The numeral system

Each number has exactly one numeral, and each text that looks like a numeral is one: digits, with
no zero in front unless it stands alone (`Canonical`). So reading and writing undo each other. The
order of numbers is that of their numerals, shorter ones first and those of one length as a
dictionary lists them; this rests on the place values of the digits (`ofDigits_cons`), where the
round trips rest on the last digit.
-/

namespace Cascade.Base36

variable {ds es : List Nat}

/-! ## Place values -/

theorem ofDigits_cons (d : Nat) (ds : List Nat) :
    ofDigits (d :: ds) = d * 36 ^ ds.length + ofDigits ds := by
  induction ds using List.reverseRecOn with
  | nil => simp [ofDigits]
  | append_singleton ds e ih =>
    rw [← List.cons_append, ofDigits_append_singleton, ih, ofDigits_append_singleton,
      List.length_append, List.length_singleton, Nat.pow_succ]
    ring

theorem ofDigits_lt (h : ∀ d ∈ ds, d < 36) : ofDigits ds < 36 ^ ds.length := by
  induction ds with
  | nil => decide
  | cons d ds ih =>
    obtain ⟨hd, hds⟩ := List.forall_mem_cons.mp h
    have hrest := ih hds
    have hplace : (d + 1) * 36 ^ ds.length ≤ 36 * 36 ^ ds.length := Nat.mul_le_mul_right _ hd
    rw [ofDigits_cons, List.length_cons, Nat.pow_succ']
    rw [Nat.add_one_mul] at hplace
    omega

/-- Of two sequences of one length, the one that is listed first has the smaller value. -/
theorem ofDigits_lt_ofDigits_iff (hlength : ds.length = es.length) (hds : ∀ d ∈ ds, d < 36)
    (hes : ∀ e ∈ es, e < 36) : ofDigits ds < ofDigits es ↔ ds < es := by
  induction ds generalizing es with
  | nil =>
    obtain rfl : es = [] := List.length_eq_zero_iff.mp hlength.symm
    exact iff_of_false (Nat.lt_irrefl _) (List.lt_irrefl _)
  | cons d ds ih =>
    cases es with
    | nil => cases hlength
    | cons e es =>
      have hlength : ds.length = es.length := Nat.succ.inj hlength
      obtain ⟨-, hds⟩ := List.forall_mem_cons.mp hds
      obtain ⟨-, hes⟩ := List.forall_mem_cons.mp hes
      have hd := ofDigits_lt hds
      have he := ofDigits_lt hes
      rw [ofDigits_cons, ofDigits_cons, List.cons_lt_cons_iff, ← ih hlength hds hes, ← hlength]
      rw [← hlength] at he
      rcases Nat.lt_trichotomy d e with hlt | rfl | hgt
      · have hplace : (d + 1) * 36 ^ ds.length ≤ e * 36 ^ ds.length := Nat.mul_le_mul_right _ hlt
        rw [Nat.add_one_mul] at hplace
        exact iff_of_true (by omega) (.inl hlt)
      · simp
      · have hplace : (e + 1) * 36 ^ ds.length ≤ d * 36 ^ ds.length := Nat.mul_le_mul_right _ hgt
        rw [Nat.add_one_mul] at hplace
        exact iff_of_false (by omega) (by omega)

/-! ## Leading zeros -/

theorem ofDigits_pos (hne : ds ≠ []) (hlead : ds.head? ≠ some 0) : 0 < ofDigits ds := by
  cases ds with
  | nil => exact absurd rfl hne
  | cons d ds =>
    have hd : 0 < d := Nat.pos_of_ne_zero fun h => hlead (by rw [h, List.head?_cons])
    rw [ofDigits_cons]
    exact Nat.add_pos_left (Nat.mul_pos hd (Nat.pow_pos (by decide))) _

/-- A sequence without a leading zero consists of the digits of its value. -/
theorem digits_ofDigits (hne : ds ≠ []) (hlt : ∀ d ∈ ds, d < 36)
    (hlead : ds = [0] ∨ ds.head? ≠ some 0) : digits (ofDigits ds) = ds := by
  induction ds using List.reverseRecOn with
  | nil => exact absurd rfl hne
  | append_singleton ds d ih =>
    obtain ⟨hlt, hd⟩ := List.forall_mem_append.mp hlt
    rw [List.forall_mem_singleton] at hd
    rw [ofDigits_append_singleton]
    cases ds with
    | nil => rw [ofDigits, List.foldl_nil, digits_of_lt (by omega)]; simp
    | cons e ds =>
      have hlead : (e :: ds).head? ≠ some 0 := hlead.resolve_left (by simp)
      have hpos : 0 < ofDigits (e :: ds) := ofDigits_pos (List.cons_ne_nil e ds) hlead
      rw [digits_of_le (by omega), Nat.mul_add_div (by decide), Nat.div_eq_of_lt hd, Nat.add_zero,
        ih (List.cons_ne_nil e ds) hlt (.inr hlead), Nat.mul_add_mod, Nat.mod_eq_of_lt hd]

theorem digits_lead (n : Nat) : digits n = [0] ∨ (digits n).head? ≠ some 0 := by
  fun_induction digits n with
  | case1 n h => by_cases hn : n = 0 <;> simp [hn]
  | case2 n h ih =>
    refine .inr ?_
    rw [List.head?_append_of_ne_nil _ (digits_ne_nil (n / 36))]
    refine ih.resolve_left fun hzero => ?_
    have hback := ofDigits_digits (n / 36)
    rw [hzero] at hback
    change 0 = n / 36 at hback
    omega

/-! ## Digit characters -/

theorem toNat_digitChar {d : Nat} (h : d < 36) :
    (digitChar d).toNat = if d < 10 then 48 + d else 87 + d := by
  have hall : ∀ d < 36, (digitChar d).toNat = if d < 10 then 48 + d else 87 + d := by decide
  exact hall d h

theorem digitChar_lt_digitChar_iff {d e : Nat} (hd : d < 36) (he : e < 36) :
    digitChar d < digitChar e ↔ d < e := by
  change (digitChar d).toNat < (digitChar e).toNat ↔ d < e
  rw [toNat_digitChar hd, toNat_digitChar he]
  split <;> split <;> omega

theorem map_digitChar_lt_iff (hds : ∀ d ∈ ds, d < 36) (hes : ∀ e ∈ es, e < 36) :
    ds.map digitChar < es.map digitChar ↔ ds < es := by
  induction ds generalizing es with
  | nil => cases es <;> simp
  | cons d ds ih =>
    cases es with
    | nil => simp
    | cons e es =>
      obtain ⟨hd, hds⟩ := List.forall_mem_cons.mp hds
      obtain ⟨he, hes⟩ := List.forall_mem_cons.mp hes
      have hinj : digitChar d = digitChar e ↔ d = e := by
        refine ⟨fun heq => ?_, congrArg digitChar⟩
        rw [← Option.some_inj, ← digitValue?_digitChar hd, heq, digitValue?_digitChar he]
      rw [List.map_cons, List.map_cons, List.cons_lt_cons_iff, List.cons_lt_cons_iff,
        digitChar_lt_digitChar_iff hd he, hinj, ih hds hes]

theorem mapM_digitValue?_map (h : ∀ d ∈ ds, d < 36) :
    (ds.map digitChar).mapM digitValue? = some ds := by
  induction ds with
  | nil => rfl
  | cons d ds ih =>
    obtain ⟨hd, hds⟩ := List.forall_mem_cons.mp h
    rw [List.map_cons, List.mapM_cons, digitValue?_digitChar hd, ih hds]
    rfl

/-- Whether a character is a digit of a numeral. -/
def IsDigit (c : Char) : Prop :=
  ('0' ≤ c ∧ c ≤ '9') ∨ ('a' ≤ c ∧ c ≤ 'z')

instance (c : Char) : Decidable (IsDigit c) :=
  inferInstanceAs (Decidable (_ ∨ _))

theorem isDigit_iff_exists_digitChar {c : Char} : IsDigit c ↔ ∃ d < 36, digitChar d = c := by
  have htoNat : IsDigit c ↔ (48 ≤ c.toNat ∧ c.toNat ≤ 57) ∨ (97 ≤ c.toNat ∧ c.toNat ≤ 122) :=
    Iff.rfl
  rw [htoNat]
  constructor
  · intro h
    refine ⟨if c.toNat ≤ 57 then c.toNat - 48 else c.toNat - 87, by split <;> omega, ?_⟩
    rw [← Char.toNat_inj, toNat_digitChar (by split <;> omega)]
    split <;> split <;> omega
  · rintro ⟨d, hd, rfl⟩
    rw [toNat_digitChar hd]
    split <;> omega

theorem exists_map_digitChar_eq {cs : List Char} (h : ∀ c ∈ cs, IsDigit c) :
    ∃ ds : List Nat, (∀ d ∈ ds, d < 36) ∧ ds.map digitChar = cs := by
  induction cs with
  | nil => exact ⟨[], by simp, rfl⟩
  | cons c cs ih =>
    obtain ⟨hc, hcs⟩ := List.forall_mem_cons.mp h
    obtain ⟨d, hd, rfl⟩ := isDigit_iff_exists_digitChar.mp hc
    obtain ⟨ds, hds, rfl⟩ := ih hcs
    exact ⟨d :: ds, List.forall_mem_cons.mpr ⟨hd, hds⟩, rfl⟩

theorem digitChar_eq_zero_iff {d : Nat} (h : d < 36) : digitChar d = '0' ↔ d = 0 := by
  have hall : ∀ d < 36, digitChar d = '0' ↔ d = 0 := by decide
  exact hall d h

/-! ## Numerals -/

/-- A text of digits that is `0` or does not begin with `0`. -/
structure Canonical (s : String) : Prop where
  nonempty : s ≠ ""
  digits : ∀ c ∈ s.toList, IsDigit c
  leading : s = "0" ∨ s.toList.head? ≠ some '0'

instance (s : String) : Decidable (Canonical s) :=
  have : Decidable (∀ c ∈ s.toList, IsDigit c) := List.decidableBAll _ s.toList
  decidable_of_iff
    (s ≠ "" ∧ (∀ c ∈ s.toList, IsDigit c) ∧ (s = "0" ∨ s.toList.head? ≠ some '0'))
    ⟨fun ⟨hnonempty, hdigits, hleading⟩ => ⟨hnonempty, hdigits, hleading⟩,
      fun h => ⟨h.nonempty, h.digits, h.leading⟩⟩

theorem canonical_ofList_map_iff (h : ∀ d ∈ ds, d < 36) :
    Canonical (String.ofList (ds.map digitChar)) ↔ ds ≠ [] ∧ (ds = [0] ∨ ds.head? ≠ some 0) := by
  have hempty : String.ofList (ds.map digitChar) = "" ↔ ds = [] := by
    rw [← String.toList_eq_nil_iff, String.toList_ofList, List.map_eq_nil_iff]
  have hdigits : ∀ c ∈ (String.ofList (ds.map digitChar)).toList, IsDigit c := by
    rw [String.toList_ofList, List.forall_mem_map]
    exact fun d hd => isDigit_iff_exists_digitChar.mpr ⟨d, h d hd, rfl⟩
  have hzero : String.ofList (ds.map digitChar) = "0" ↔ ds = [0] := by
    rw [← String.toList_inj, String.toList_ofList]
    cases ds with
    | nil => decide
    | cons d ds => simp [digitChar_eq_zero_iff (h d List.mem_cons_self)]
  have hhead :
      (String.ofList (ds.map digitChar)).toList.head? = some '0' ↔ ds.head? = some 0 := by
    rw [String.toList_ofList]
    cases ds with
    | nil => decide
    | cons d ds => simp [digitChar_eq_zero_iff (h d List.mem_cons_self)]
  rw [ne_eq, ← hempty, ne_eq, ← hhead, ← hzero]
  exact ⟨fun hs => ⟨hs.nonempty, hs.leading⟩, fun ⟨hne, hlead⟩ => ⟨hne, hdigits, hlead⟩⟩

theorem canonical_encode (n : Nat) : Canonical (encode n) :=
  (canonical_ofList_map_iff fun _ => digits_lt).mpr ⟨digits_ne_nil n, digits_lead n⟩

/-- Any digits are read, leading zeros too. -/
theorem decode?_ofList_map (hne : ds ≠ []) (hlt : ∀ d ∈ ds, d < 36) :
    decode? (String.ofList (ds.map digitChar)) = some (ofDigits ds) := by
  have hnonempty : (String.ofList (ds.map digitChar)).isEmpty = false := by
    rw [String.isEmpty_eq_false_iff, ne_eq, ← String.toList_eq_nil_iff, String.toList_ofList,
      List.map_eq_nil_iff]
    exact hne
  rw [decode?, hnonempty, if_neg (by simp), String.toList_ofList, mapM_digitValue?_map hlt,
    Option.map_some]

theorem decode?_encode (n : Nat) : decode? (encode n) = some n := by
  rw [encode, decode?_ofList_map (digits_ne_nil n) fun _ => digits_lt, ofDigits_digits]

theorem Canonical.exists_encode_eq {s : String} (h : Canonical s) : ∃ n, encode n = s := by
  obtain ⟨ds, hds, hs⟩ := exists_map_digitChar_eq h.digits
  obtain rfl : s = String.ofList (ds.map digitChar) := by rw [hs, String.ofList_toList]
  obtain ⟨hne, hlead⟩ := (canonical_ofList_map_iff hds).mp h
  exact ⟨ofDigits ds, by rw [encode, digits_ofDigits hne hds hlead]⟩

/-! ## Order -/

theorem lt_of_length_digits_lt {m n : Nat} (h : (digits m).length < (digits n).length) :
    m < n := by
  have hpos : 0 < (digits m).length := List.length_pos_iff.mpr (digits_ne_nil m)
  have hm : m < 36 ^ (digits m).length := (length_digits_le_iff hpos m).mp (Nat.le_refl _)
  have hn : ¬ n < 36 ^ (digits m).length :=
    fun hlt => Nat.not_le.mpr h ((length_digits_le_iff hpos n).mpr hlt)
  omega

/-- Numerals of one length are listed in the order of their numbers. -/
theorem encode_lt_encode_iff {m n : Nat} (h : (digits m).length = (digits n).length) :
    encode m < encode n ↔ m < n := by
  rw [String.lt_iff, encode, encode, String.toList_ofList, String.toList_ofList,
    map_digitChar_lt_iff (fun _ => digits_lt) fun _ => digits_lt,
    ← ofDigits_lt_ofDigits_iff h (fun _ => digits_lt) fun _ => digits_lt, ofDigits_digits,
    ofDigits_digits]

/-- **The numerals are a canonical system.** Reading a numeral gives its number back, and each
text that looks like a numeral is that of its value. So different numbers have different numerals;
the smaller number has the shorter numeral, or the one that is listed first among those of one
length; and a numeral has at most `d` digits exactly below `36 ^ d`. -/
theorem numeral_system_canonical :
    (∀ n, Canonical (encode n) ∧ decode? (encode n) = some n)
    ∧ (∀ s, Canonical s → ∃ n, decode? s = some n ∧ encode n = s)
    ∧ Function.Injective encode
    ∧ (∀ m n, m < n ↔
      (encode m).length < (encode n).length
        ∨ (encode m).length = (encode n).length ∧ encode m < encode n)
    ∧ ∀ n d, 0 < d → ((encode n).length ≤ d ↔ n < 36 ^ d) := by
  refine ⟨fun n => ⟨canonical_encode n, decode?_encode n⟩, fun s hs => ?_, encode_injective,
    fun m n => ?_, fun n d hd => ?_⟩
  · obtain ⟨n, rfl⟩ := hs.exists_encode_eq
    exact ⟨n, decode?_encode n, rfl⟩
  · rw [length_encode, length_encode]
    rcases Nat.lt_trichotomy (digits m).length (digits n).length with hlt | heq | hgt
    · exact iff_of_true (lt_of_length_digits_lt hlt) (.inl hlt)
    · rw [encode_lt_encode_iff heq]
      omega
    · have hnot := lt_of_length_digits_lt hgt
      exact iff_of_false (by omega) (by omega)
  · rw [length_encode, length_digits_le_iff hd]

/-- The largest size of a signed 32-bit number. -/
theorem numeral_system_canonical_largest :
    Canonical "zik0zk" ∧ decode? "zik0zk" = some (2 ^ 31) ∧ encode (2 ^ 31) = "zik0zk"
      ∧ 0 < 6 ∧ ((encode (2 ^ 31)).length ≤ 6 ↔ 2 ^ 31 < 36 ^ 6) := by
  obtain ⟨-, hread, -, -, hlength⟩ := numeral_system_canonical
  have hcanonical : Canonical "zik0zk" := by decide
  have hvalue : decode? "zik0zk" = some (2 ^ 31) := rfl
  obtain ⟨n, hn, hencode⟩ := hread "zik0zk" hcanonical
  obtain rfl : n = 2 ^ 31 := Option.some.inj (hn.symm.trans hvalue)
  exact ⟨hcanonical, hvalue, hencode, by decide, hlength _ 6 (by decide)⟩

end Cascade.Base36
