import Cascade.Checksum
import Cascade.Proofs.Number.Base36
import Mathlib.Algebra.Group.Int.Defs
import Mathlib.Logic.ExistsUnique

/-!
# What the checksums tell apart

The short checksum of a text is the numeral of its signed word: every such word fits into six
digits, so nothing is cut off (`short_eq_encode`), and two texts share it exactly if their words
differ at most in sign.

A step of the mixed checksum can be undone when the unit is known, because 33 has an inverse among
the 32-bit words, and it tells two units apart. So what comes behind an edit cannot undo it
(`foldl_mixUnit_inj`), and a change of a single unit always shows (`ofCss_detects_edit`).
-/

namespace Cascade.Checksum

/-! ## The short checksum -/

theorem neg_le_signed (s : String) : -2 ^ 31 ≤ signed s :=
  Int.le_bmod (by decide)

theorem signed_lt (s : String) : signed s < 2 ^ 31 :=
  Int.bmod_lt (by decide)

/-- Six digits hold every signed 32-bit number. -/
theorem length_encode_natAbs_le {v : Int} (hlower : -2 ^ 31 ≤ v) (hupper : v < 2 ^ 31) :
    (Base36.encode v.natAbs).length ≤ 6 := by
  have hsize : v.natAbs ≤ 2 ^ 31 := by omega
  rw [Base36.length_encode, Base36.length_digits_le_iff (by decide)]
  exact Nat.lt_of_le_of_lt hsize (by decide)

theorem short_eq_encode (s : String) : short s = Base36.encode (signed s).natAbs := by
  have hlength := length_encode_natAbs_le (neg_le_signed s) (signed_lt s)
  rw [short, List.take_of_length_le (by rwa [String.length_toList]), String.ofList_toList]

theorem short_inj {s t : String} :
    short s = short t ↔ signed s = signed t ∨ signed s = -signed t := by
  rw [short_eq_encode, short_eq_encode, Base36.encode_injective.eq_iff, Int.natAbs_eq_natAbs_iff]

theorem not_mem_short {c : Char} (h : Base36.digitValue? c = none) (s : String) :
    c ∉ (short s).toList := by
  rw [short_eq_encode]
  exact Base36.not_mem_encode h _

/-! ## One step of the mixed checksum -/

/-- 33 has an inverse among the 32-bit words. -/
theorem mul_33_inj {h h' : UInt32} : h * 33 = h' * 33 ↔ h = h' := by
  have hinverse : (33 : UInt32) * 0x3e0f83e1 = 1 := by decide
  refine ⟨fun heq => ?_, fun heq => by rw [heq]⟩
  calc h = h * 33 * 0x3e0f83e1 := by rw [UInt32.mul_assoc, hinverse, UInt32.mul_one]
    _ = h' * 33 * 0x3e0f83e1 := by rw [heq]
    _ = h' := by rw [UInt32.mul_assoc, hinverse, UInt32.mul_one]

theorem mixUnit_left_inj {h h' : UInt32} (u : UInt16) : mixUnit h u = mixUnit h' u ↔ h = h' := by
  rw [mixUnit, mixUnit, UInt32.xor_left_inj, mul_33_inj]

theorem mixUnit_right_inj {u u' : UInt16} (h : UInt32) : mixUnit h u = mixUnit h u' ↔ u = u' := by
  rw [mixUnit, mixUnit, UInt32.xor_right_inj, UInt16.toUInt32_inj]

/-- Common units at the end change nothing about whether two words are equal. -/
theorem foldl_mixUnit_inj {h h' : UInt32} (units : List UInt16) :
    units.foldl mixUnit h = units.foldl mixUnit h' ↔ h = h' := by
  induction units generalizing h h' with
  | nil => rfl
  | cons u rest ih => rw [List.foldl_cons, List.foldl_cons, ih, mixUnit_left_inj]

/-! ## Texts -/

theorem ofCss_inj {css css' : String} : ofCss css = ofCss css' ↔ mix css = mix css' := by
  rw [ofCss, ofCss, Base36.encode_injective.eq_iff, UInt32.toNat_inj]

theorem not_mem_ofCss {c : Char} (h : Base36.digitValue? c = none) (css : String) :
    c ∉ (ofCss css).toList :=
  Base36.not_mem_encode h _

theorem mix_append (s t : String) : mix (s ++ t) = (Text.units t).foldl mixUnit (mix s) := by
  rw [mix, Text.units_append, List.foldl_append, mix]

/-- Sequences of one length that differ in one place are the same before it and behind it. -/
theorem exists_split_of_differ_once {α : Type} {xs ys : List α} (hlength : xs.length = ys.length)
    (h : ∃! i : Nat, xs[i]? ≠ ys[i]?) :
    ∃ before x y after, xs = before ++ x :: after ∧ ys = before ++ y :: after ∧ x ≠ y := by
  obtain ⟨i, hdiffer, honly⟩ := h
  have hsame : ∀ j, j ≠ i → xs[j]? = ys[j]? := fun j hj =>
    Classical.byContradiction fun hne => hj (honly j hne)
  have hi : i < xs.length := by
    refine Nat.lt_of_not_le fun hle => hdiffer ?_
    rw [List.getElem?_eq_none hle, List.getElem?_eq_none (hlength ▸ hle)]
  have hi' : i < ys.length := hlength ▸ hi
  have hbefore : xs.take i = ys.take i := by
    refine List.ext_getElem? fun j => ?_
    rw [List.getElem?_take, List.getElem?_take]
    split
    · exact hsame j (by omega)
    · rfl
  have hafter : xs.drop (i + 1) = ys.drop (i + 1) := by
    refine List.ext_getElem? fun j => ?_
    rw [List.getElem?_drop, List.getElem?_drop]
    exact hsame (i + 1 + j) (by omega)
  refine ⟨xs.take i, xs[i], ys[i], xs.drop (i + 1), ?_, ?_, fun heq => hdiffer ?_⟩
  · rw [← List.drop_eq_getElem_cons hi, List.take_append_drop]
  · rw [hbefore, hafter, ← List.drop_eq_getElem_cons hi', List.take_append_drop]
  · rw [List.getElem?_eq_getElem hi, List.getElem?_eq_getElem hi', heq]

/-! ## Numbers of any size -/

/-- One step of the mixed checksum in numbers of any size. Only the product is cut to 32 bits, and
that before the unit goes in. -/
def mixUnitNat (h : Nat) (u : UInt16) : Nat :=
  (h * 33 &&& 0xffffffff) ^^^ u.toNat

/-- The mixed checksum of some units in numbers of any size. -/
def mixNat (units : List UInt16) : Nat :=
  units.foldl mixUnitNat 5381

theorem toNat_mixUnit (h : UInt32) (u : UInt16) : (mixUnit h u).toNat = mixUnitNat h.toNat u := by
  have hmask : h.toNat * 33 &&& 0xffffffff = h.toNat * 33 % 2 ^ 32 :=
    Nat.and_two_pow_sub_one_eq_mod _ 32
  rw [mixUnit, mixUnitNat, UInt32.toNat_xor, UInt32.toNat_mul, UInt16.toNat_toUInt32, hmask]
  rfl

theorem toNat_foldl_mixUnit (h : UInt32) (units : List UInt16) :
    (units.foldl mixUnit h).toNat = units.foldl mixUnitNat h.toNat := by
  induction units generalizing h with
  | nil => rfl
  | cons u rest ih => rw [List.foldl_cons, List.foldl_cons, ih, toNat_mixUnit]

/-- The numbers are the words. -/
theorem mixNat_eq (units : List UInt16) : mixNat units = (units.foldl mixUnit 5381).toNat :=
  (toNat_foldl_mixUnit 5381 units).symm

theorem mixNat_lt (units : List UInt16) : mixNat units < 2 ^ 32 := by
  rw [mixNat_eq]
  exact UInt32.toNat_lt _

/-- Texts have one checksum exactly if they have it in numbers of any size. -/
theorem ofCss_inj_mixNat {css css' : String} :
    ofCss css = ofCss css' ↔ mixNat (Text.units css) = mixNat (Text.units css') := by
  rw [ofCss_inj, mixNat_eq, mixNat_eq, UInt32.toNat_inj, mix, mix]

/-- **A change of one unit shows.** Texts of equally many units that differ in just one of them
have different checksums. With the same text before an edit and behind it, the checksums are equal
exactly if the words behind the edit are; and the checksum that is written is one of numbers that
never leave 32 bits. -/
theorem ofCss_detects_edit :
    (∀ css css' : String, (Text.units css).length = (Text.units css').length →
      (∃! i : Nat, (Text.units css)[i]? ≠ (Text.units css')[i]?) → ofCss css ≠ ofCss css')
    ∧ (∀ before x y after : String,
      ofCss (before ++ x ++ after) = ofCss (before ++ y ++ after) ↔
        mix (before ++ x) = mix (before ++ y))
    ∧ ∀ css : String, ofCss css = Base36.encode (mixNat (Text.units css))
      ∧ ∀ n, mixNat ((Text.units css).take n) < 2 ^ 32 := by
  refine ⟨fun css css' hlength honce hsame => ?_, fun before x y after => ?_, fun css => ⟨?_, ?_⟩⟩
  · obtain ⟨before, u, u', after, hcss, hcss', hne⟩ := exists_split_of_differ_once hlength honce
    rw [ofCss_inj, mix, mix, hcss, hcss', List.foldl_append, List.foldl_append, List.foldl_cons,
      List.foldl_cons, foldl_mixUnit_inj, mixUnit_right_inj] at hsame
    exact hne hsame
  · rw [ofCss_inj, mix_append (before ++ x), mix_append (before ++ y), foldl_mixUnit_inj]
  · rw [ofCss, mixNat_eq, mix]
  · exact fun n => mixNat_lt _

/-- Two characters that share their first unit. -/
theorem ofCss_detects_edit_surrogate :
    (Text.units "a😀b").length = (Text.units "a😁b").length
      ∧ (∃! i : Nat, (Text.units "a😀b")[i]? ≠ (Text.units "a😁b")[i]?)
      ∧ ofCss "a😀b" ≠ ofCss "a😁b" := by
  have hunits : Text.units "a😀b" = [0x61, 0xd83d, 0xde00, 0x62] := by decide +kernel
  have hunits' : Text.units "a😁b" = [0x61, 0xd83d, 0xde01, 0x62] := by decide +kernel
  have hlength : (Text.units "a😀b").length = (Text.units "a😁b").length := by
    rw [hunits, hunits']
    rfl
  have honce : ∃! i : Nat, (Text.units "a😀b")[i]? ≠ (Text.units "a😁b")[i]? := by
    rw [hunits, hunits']
    refine ⟨2, by decide, fun i hi => ?_⟩
    rcases i with _ | _ | _ | _ | i
    · exact absurd rfl hi
    · exact absurd rfl hi
    · rfl
    · exact absurd rfl hi
    · exact absurd rfl hi
  exact ⟨hlength, honce, ofCss_detects_edit.1 _ _ hlength honce⟩

end Cascade.Checksum
