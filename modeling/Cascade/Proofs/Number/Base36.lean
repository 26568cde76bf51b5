import Cascade.Number.Base36
import Mathlib.Algebra.Group.Nat.Defs
import Mathlib.Data.List.Basic

/-!
# Numerals in base 36

A numeral is read back to its number, so no two numbers share one (`encode_injective`). It
consists of digits alone, so any other character may stand beside it as a mark (`not_mem_encode`),
and it is as long as the number needs (`length_digits_le_iff`).
-/

namespace Cascade.Base36

theorem digitValue?_digitChar {d : Nat} (h : d < 36) : digitValue? (digitChar d) = some d := by
  have hall : ∀ d < 36, digitValue? (digitChar d) = some d := by decide
  exact hall d h

theorem filterMap_digitValue? (n : Nat) : (encode n).toList.filterMap digitValue? = digits n := by
  rw [encode, String.toList_ofList, List.filterMap_map]
  calc (digits n).filterMap (digitValue? ∘ digitChar)
      = (digits n).filterMap some :=
        List.filterMap_congr fun _ hd => digitValue?_digitChar (digits_lt hd)
    _ = digits n := List.filterMap_some

theorem encode_injective : Function.Injective encode := by
  intro m n h
  have hdigits : digits m = digits n := by
    rw [← filterMap_digitValue? m, h, filterMap_digitValue? n]
  rw [← ofDigits_digits m, hdigits, ofDigits_digits n]

/-- What is no digit stands in no numeral. -/
theorem not_mem_encode {c : Char} (h : digitValue? c = none) (n : Nat) :
    c ∉ (encode n).toList := by
  intro hmem
  rw [encode, String.toList_ofList, List.mem_map] at hmem
  obtain ⟨d, hd, rfl⟩ := hmem
  rw [digitValue?_digitChar (digits_lt hd)] at h
  cases h

theorem digits_ne_nil (n : Nat) : digits n ≠ [] := by
  fun_cases digits n with
  | case1 => exact List.cons_ne_nil n []
  | case2 => exact List.append_ne_nil_of_right_ne_nil _ (List.cons_ne_nil (n % 36) [])

theorem length_encode (n : Nat) : (encode n).length = (digits n).length := by
  rw [encode, String.length_ofList, List.length_map]

/-- A numeral has at most `d` digits exactly below `36 ^ d`. -/
theorem length_digits_le_iff {d : Nat} (hd : 0 < d) (n : Nat) :
    (digits n).length ≤ d ↔ n < 36 ^ d := by
  fun_induction digits n generalizing d with
  | case1 n h =>
    have hpow : 36 ≤ 36 ^ d := Nat.le_self_pow (Nat.ne_of_gt hd) 36
    exact iff_of_true hd (Nat.lt_of_lt_of_le h hpow)
  | case2 n h ih =>
    obtain ⟨d, rfl⟩ : ∃ e, d = e + 1 := ⟨d - 1, by omega⟩
    rw [List.length_append, List.length_singleton, Nat.add_le_add_iff_right]
    rcases Nat.eq_zero_or_pos d with rfl | hd
    -- One digit is too few for 36 and above.
    · have hlength := List.length_pos_iff.mpr (digits_ne_nil (n / 36))
      exact iff_of_false (by omega) (by omega)
    · rw [ih hd, Nat.div_lt_iff_lt_mul (by decide), Nat.pow_succ]

end Cascade.Base36
