import Cascade.Proofs.Checksum
import Cascade.Proofs.Number.Numeral
import Mathlib.Algebra.BigOperators.Fin
import Mathlib.Data.Int.ModEq

/-!
# The short checksum as a polynomial

The short checksum is rolled in 32-bit words, but what it shows is a number of any size: the value
at 31 of the polynomial that has the units as coefficients (`polynomial`). The words keep that
value up to multiples of `2 ^ 32` (`modEq_foldl_rolling`), and the sign is chosen so that each
value has one representative (`represents_iff`). Nothing else is lost on the way to the text, not
even for the least signed word, which has no positive counterpart: six digits go up to `36 ^ 6`,
and that is more than `2 ^ 31`.
-/

namespace Cascade.Checksum

/-- The value at 31 of the polynomial with these coefficients, the constant one last. -/
def polynomial (units : List UInt16) : Int :=
  ∑ i : Fin units.length, (units[i].toNat : Int) * 31 ^ (units.length - 1 - i)

theorem polynomial_nil : polynomial [] = 0 :=
  rfl

theorem polynomial_cons (u : UInt16) (rest : List UInt16) :
    polynomial (u :: rest) = u.toNat * 31 ^ rest.length + polynomial rest := by
  rw [polynomial]
  change ∑ i : Fin (rest.length + 1), _ = _
  rw [Fin.sum_univ_succ]
  congr 1
  refine Finset.sum_congr rfl fun i _ => ?_
  have hplace : (u :: rest).length - 1 - i.succ.val = rest.length - 1 - i.val := by
    rw [List.length_cons, Fin.val_succ]
    omega
  rw [hplace]
  rfl

/-! ## Words -/

/-- One more unit, in a word and in a number of any size. -/
theorem modEq_rollUnit (h : UInt32) (u : UInt16) :
    ((h * 31 + u.toUInt32).toNat : Int) ≡ h.toNat * 31 + u.toNat [ZMOD 2 ^ 32] := by
  have hfactor : (31 : UInt32).toNat = 31 := rfl
  rw [UInt32.toNat_add, UInt32.toNat_mul, UInt16.toNat_toUInt32, hfactor, Int.ModEq]
  omega

theorem modEq_foldl_rolling (h : UInt32) (units : List UInt16) :
    ((units.foldl (fun h u => h * 31 + u.toUInt32) h).toNat : Int) ≡
      h.toNat * 31 ^ units.length + polynomial units [ZMOD 2 ^ 32] := by
  induction units generalizing h with
  | nil => simp [polynomial_nil]
  | cons u rest ih =>
    rw [List.foldl_cons, polynomial_cons, List.length_cons]
    calc _ ≡ (h * 31 + u.toUInt32).toNat * 31 ^ rest.length + polynomial rest [ZMOD 2 ^ 32] :=
        ih _
      _ ≡ (h.toNat * 31 + u.toNat) * 31 ^ rest.length + polynomial rest [ZMOD 2 ^ 32] :=
        ((modEq_rollUnit h u).mul_right _).add_right _
      _ = h.toNat * 31 ^ (rest.length + 1) + (u.toNat * 31 ^ rest.length + polynomial rest) := by
        ring

/-! ## Representatives -/

/-- Whether `v` is the signed 32-bit number that stands for `n`. -/
structure Represents (v n : Int) : Prop where
  lower : -2 ^ 31 ≤ v
  upper : v < 2 ^ 31
  modEq : v ≡ n [ZMOD 2 ^ 32]

theorem Represents.unique {v w n : Int} (hv : Represents v n) (hw : Represents w n) : v = w := by
  have hmod : v % 2 ^ 32 = w % 2 ^ 32 := hv.modEq.trans hw.modEq.symm
  have hvlower := hv.lower
  have hvupper := hv.upper
  have hwlower := hw.lower
  have hwupper := hw.upper
  omega

theorem represents_signed (s : String) : Represents (signed s) (polynomial (Text.units s)) where
  lower := neg_le_signed s
  upper := signed_lt s
  modEq := by
    have hroll := modEq_foldl_rolling 0 (Text.units s)
    have hzero : ((0 : UInt32).toNat : Int) = 0 := rfl
    rw [hzero, zero_mul, zero_add] at hroll
    exact (Int.bmod_emod : signed s % 2 ^ 32 = _).trans hroll

theorem represents_iff {s : String} {v : Int} :
    Represents v (polynomial (Text.units s)) ↔ v = signed s :=
  ⟨fun h => h.unique (represents_signed s), fun h => h ▸ represents_signed s⟩

/-! ## Digits -/

theorem length_short_pos (s : String) : 0 < (short s).length := by
  rw [short_eq_encode, Base36.length_encode]
  exact List.length_pos_iff.mpr (Base36.digits_ne_nil _)

/-- **The short checksum loses no digit.** It is the canonical numeral of `v` without its sign,
where `v` is the signed 32-bit number that stands for the value of the units as a polynomial. The
cut to six characters takes nothing away from any such number, so the checksum has one to six
characters; and two texts share it exactly if their numbers are equal or opposite. -/
theorem short_loses_no_digit :
    (∀ s, (∀ v, Represents v (polynomial (Text.units s)) ↔ v = signed s)
      ∧ short s = Base36.encode (signed s).natAbs
      ∧ Base36.Canonical (short s) ∧ Base36.decode? (short s) = some (signed s).natAbs
      ∧ 1 ≤ (short s).length ∧ (short s).length ≤ 6)
    ∧ (∀ v : Int, -2 ^ 31 ≤ v → v < 2 ^ 31 →
      (Base36.encode v.natAbs).toList.take 6 = (Base36.encode v.natAbs).toList)
    ∧ ∀ s t, short s = short t ↔ signed s = signed t ∨ signed s = -signed t := by
  refine ⟨fun s => ⟨fun v => represents_iff, short_eq_encode s, ?_, ?_, length_short_pos s, ?_⟩,
    fun v hlower hupper => List.take_of_length_le ?_, fun s t => short_inj⟩
  · rw [short_eq_encode]
    exact Base36.canonical_encode _
  · rw [short_eq_encode, Base36.decode?_encode]
  · rw [short_eq_encode]
    exact length_encode_natAbs_le (neg_le_signed s) (signed_lt s)
  · rw [String.length_toList]
    exact length_encode_natAbs_le hlower hupper

/-- A text whose number is the least of all. -/
theorem short_loses_no_digit_least :
    signed "polygenelubricants" = -2 ^ 31 ∧ short "polygenelubricants" = "zik0zk"
      ∧ -2 ^ 31 ≤ signed "polygenelubricants" ∧ signed "polygenelubricants" < 2 ^ 31
      ∧ (Base36.encode (signed "polygenelubricants").natAbs).toList.take 6 =
        (Base36.encode (signed "polygenelubricants").natAbs).toList := by
  have hleast : signed "polygenelubricants" = -2 ^ 31 := by decide +kernel
  have hshort : short "polygenelubricants" = "zik0zk" := by decide +kernel
  have hlower : -2 ^ 31 ≤ signed "polygenelubricants" := by rw [hleast]
  have hupper : signed "polygenelubricants" < 2 ^ 31 := by rw [hleast]; decide
  exact ⟨hleast, hshort, hlower, hupper, short_loses_no_digit.2.1 _ hlower hupper⟩

end Cascade.Checksum
