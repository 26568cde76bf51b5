/-!
# Base 36

Numerals with the digits `0` to `9` and `a` to `z`, most significant first, without leading zeros;
zero is `0`. `ofDigits` reads a digit sequence back.
-/

namespace Cascade.Base36

/-- The digit of a number below 36. -/
def digitChar (d : Nat) : Char :=
  if d < 10 then Char.ofNat ('0'.toNat + d) else Char.ofNat ('a'.toNat + (d - 10))

/-- The value of a digit. -/
def digitValue? (c : Char) : Option Nat :=
  if '0' ≤ c && c ≤ '9' then some (c.toNat - '0'.toNat)
  else if 'a' ≤ c && c ≤ 'z' then some (c.toNat - 'a'.toNat + 10)
  else none

/-- The digits of a number, most significant first. -/
def digits (n : Nat) : List Nat :=
  if n < 36 then [n] else digits (n / 36) ++ [n % 36]

/-- The value of a digit sequence, most significant first. -/
def ofDigits (ds : List Nat) : Nat :=
  ds.foldl (fun n d => 36 * n + d) 0

/-- The numeral of a number. -/
def encode (n : Nat) : String :=
  String.ofList ((digits n).map digitChar)

/-- Reads a numeral; `none` for an empty text or a character that is no digit. -/
def decode? (s : String) : Option Nat :=
  if s.isEmpty then none else (s.toList.mapM digitValue?).map ofDigits

theorem digits_of_lt {n : Nat} (h : n < 36) : digits n = [n] := by
  rw [digits, if_pos h]

theorem digits_of_le {n : Nat} (h : 36 ≤ n) : digits n = digits (n / 36) ++ [n % 36] := by
  rw [digits, if_neg (by omega)]

@[simp] theorem ofDigits_append_singleton (ds : List Nat) (d : Nat) :
    ofDigits (ds ++ [d]) = 36 * ofDigits ds + d := by
  simp [ofDigits]

theorem ofDigits_digits (n : Nat) : ofDigits (digits n) = n := by
  fun_induction digits n with
  | case1 n h => simp [ofDigits]
  | case2 n h ih => rw [ofDigits_append_singleton, ih]; omega

theorem digits_lt {n d : Nat} (h : d ∈ digits n) : d < 36 := by
  fun_induction digits n with
  | case1 n hn => simp at h; omega
  | case2 n hn ih =>
    rcases List.mem_append.mp h with h | h
    · exact ih h
    · simp at h; omega

end Cascade.Base36
