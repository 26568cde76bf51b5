import Cascade.Json.Token
import Cascade.Json.Writer
import Mathlib.Tactic.SplitIfs

/-!
# Strings read back

A string that was written is read as the string that it was. There are three layers between the
two. Characters become 16-bit units and are joined from them again
(`joinUnits_flatMap_unitNumbers`); a unit becomes four digits and is read from them again
(`hex4?_hexDigits`); and each character is scanned as its units, however it was escaped
(`scanText_escapeChar`).
-/

namespace Cascade.Json

/-! ## Characters and units -/

/-- The code units of a character as numbers. -/
def unitNumbers (c : Char) : List Nat :=
  (Text.unitsOf c).map UInt16.toNat

/-- A character is no half of a pair. -/
theorem not_surrogate (c : Char) :
    isHighSurrogate c.toNat = false ∧ isLowSurrogate c.toNat = false := by
  have hvalid : c.toNat < 0xd800 ∨ 0xdfff < c.toNat ∧ c.toNat < 0x110000 := c.valid
  simp only [isHighSurrogate, isLowSurrogate, Bool.and_eq_false_iff, decide_eq_false_iff_not]
  omega

theorem unitNumbers_of_lt {c : Char} (h : c.toNat < 0x10000) : unitNumbers c = [c.toNat] := by
  have hsize : c.toNat < UInt16.size := h
  simp [unitNumbers, Text.unitsOf, h, Nat.mod_eq_of_lt hsize]

theorem unitNumbers_of_le {c : Char} (h : 0x10000 ≤ c.toNat) :
    unitNumbers c =
      [0xd800 + (c.toNat - 0x10000) / 0x400, 0xdc00 + (c.toNat - 0x10000) % 0x400] := by
  have hvalid : c.toNat < 0xd800 ∨ 0xdfff < c.toNat ∧ c.toNat < 0x110000 := c.valid
  simp only [unitNumbers, Text.unitsOf, if_neg (Nat.not_lt.mpr h), List.map_cons, List.map_nil,
    Nat.toUInt16_eq, UInt16.toNat_ofNat', List.cons.injEq, and_true]
  omega

theorem joinUnits_unitNumbers (c : Char) (units : List Nat) :
    joinUnits (unitNumbers c ++ units) = c :: joinUnits units := by
  by_cases hc : c.toNat < 0x10000
  · obtain ⟨hhigh, hlow⟩ := not_surrogate c
    have hchar : unitChar c.toNat = c := by simp [unitChar, hhigh, hlow]
    rw [unitNumbers_of_lt hc, List.singleton_append]
    cases units with
    | nil => simp [joinUnits, hchar]
    | cons unit rest => simp [joinUnits, hhigh, hchar]
  · have hvalid : c.toNat < 0xd800 ∨ 0xdfff < c.toNat ∧ c.toNat < 0x110000 := c.valid
    have hc := Nat.not_lt.mp hc
    obtain ⟨hhigh, hlow, hsum⟩ :
        isHighSurrogate (0xd800 + (c.toNat - 0x10000) / 0x400) = true
          ∧ isLowSurrogate (0xdc00 + (c.toNat - 0x10000) % 0x400) = true
          ∧ 0x10000 + (0xd800 + (c.toNat - 0x10000) / 0x400 - 0xd800) * 0x400
              + (0xdc00 + (c.toNat - 0x10000) % 0x400 - 0xdc00) = c.toNat := by
      simp only [isHighSurrogate, isLowSurrogate, Bool.and_eq_true, decide_eq_true_eq]
      omega
    simp only [unitNumbers_of_le hc, List.cons_append, List.nil_append, joinUnits, hhigh, hlow,
      Bool.and_self, if_true, hsum, Char.ofNat_toNat]

theorem joinUnits_flatMap_unitNumbers (s : List Char) :
    joinUnits (s.flatMap unitNumbers) = s := by
  induction s with
  | nil => rfl
  | cons c s ih => rw [List.flatMap_cons, joinUnits_unitNumbers, ih]

/-! ## Units and digits -/

theorem hexDigit?_digitChar : ∀ d < 16, hexDigit? (Nat.digitChar d) = some d := by
  decide

theorem hexDigits_four (n : Nat) :
    Text.hexDigits 4 n =
      [Nat.digitChar (n / 0x1000 % 16), Nat.digitChar (n / 0x100 % 16),
        Nat.digitChar (n / 0x10 % 16), Nat.digitChar (n % 16)] := by
  simp [Text.hexDigits, List.range, List.range.loop]

theorem hex4?_hexDigits {n : Nat} (h : n < 0x10000) :
    hex4? (Nat.digitChar (n / 0x1000 % 16)) (Nat.digitChar (n / 0x100 % 16))
      (Nat.digitChar (n / 0x10 % 16)) (Nat.digitChar (n % 16)) = some n := by
  have hdigit (m : Nat) : hexDigit? (Nat.digitChar (m % 16)) = some (m % 16) :=
    hexDigit?_digitChar _ (Nat.mod_lt m (by decide))
  simp only [hex4?, hdigit, bind, Option.bind, pure, Option.some.injEq]
  omega

/-! ## Escapes -/

/-- A letter that stands behind a backslash, and the character that it stands for. -/
theorem unescape?_spec {letter c : Char} (h : unescape? letter = some c) :
    ' ' ≤ letter ∧ letter ≤ '~' ∧ letter ≠ 'u' ∧ c.toNat < 0x10000 := by
  revert h
  fun_cases unescape? letter <;> rintro ⟨⟩ <;> decide

/-- The three ways in which a character is written: by a letter, as it is, and by its units. -/
theorem escapeChar_cases (c : Char) :
    (∃ letter, escapeChar c = ['\\', letter] ∧ unescape? letter = some c)
      ∨ (escapeChar c = [c] ∧ c ≠ '"' ∧ c ≠ '\\' ∧ ' ' ≤ c ∧ c ≤ '~')
      ∨ escapeChar c = (Text.unitsOf c).flatMap fun unit =>
          '\\' :: 'u' :: Text.hexDigits 4 unit.toNat := by
  rw [escapeChar]
  split_ifs with hself hn hr ht hb hf hplain
  · refine .inl ⟨c, rfl, ?_⟩
    rcases (by simpa using hself : c = '"' ∨ c = '\\') with rfl | rfl <;> rfl
  · exact .inl ⟨'n', rfl, by rw [hn]; rfl⟩
  · exact .inl ⟨'r', rfl, by rw [hr]; rfl⟩
  · exact .inl ⟨'t', rfl, by rw [ht]; rfl⟩
  · exact .inl ⟨'b', rfl, by rw [hb]; rfl⟩
  · exact .inl ⟨'f', rfl, by rw [hf]; rfl⟩
  · obtain ⟨hquote, hbackslash⟩ : c ≠ '"' ∧ c ≠ '\\' := by simpa using hself
    exact .inr (.inl ⟨rfl, hquote, hbackslash, by simpa using hplain⟩)
  · exact .inr (.inr rfl)

variable {rest : List Char}

/-- Units in front of those that are scanned next. -/
def scanned (units : List Nat) (later : Except (Problem × Nat) (List Nat × Nat)) :
    Except (Problem × Nat) (List Nat × Nat) :=
  later.map fun (more, stop) => (units ++ more, stop)

theorem scanned_nil (later : Except (Problem × Nat) (List Nat × Nat)) :
    scanned [] later = later := by
  cases later <;> rfl

theorem scanned_scanned (a b : List Nat) (later : Except (Problem × Nat) (List Nat × Nat)) :
    scanned a (scanned b later) = scanned (a ++ b) later := by
  cases later with
  | error => rfl
  | ok => simp [scanned, Except.map]

theorem scanText_letter (offset : Nat) {letter c : Char} (hletter : unescape? letter = some c) :
    scanText offset ('\\' :: letter :: rest) =
      scanned [c.toNat] (scanText (offset + 2) rest) := by
  simp [scanText, hletter, (unescape?_spec hletter).2.2.1, scanned]

theorem scanText_self (offset : Nat) {c : Char} (hquote : c ≠ '"') (hbackslash : c ≠ '\\')
    (hc : ' ' ≤ c) :
    scanText offset (c :: rest) = scanned [c.toNat] (scanText (offset + 1) rest) := by
  have hc : ¬ c.toNat < 0x20 := Nat.not_lt.mpr hc
  simp [scanText, hbackslash, hc, scanned]

/-- An escape by number must not be the last of the text. -/
theorem scanText_unit (offset : Nat) (unit : UInt16) (hrest : rest ≠ []) :
    scanText offset ('\\' :: 'u' :: Text.hexDigits 4 unit.toNat ++ rest) =
      scanned [unit.toNat] (scanText (offset + 6) rest) := by
  obtain ⟨next, rest, rfl⟩ := List.exists_cons_of_ne_nil hrest
  simp only [hexDigits_four, List.cons_append, List.nil_append, scanText,
    hex4?_hexDigits unit.toNat_lt]
  rfl

theorem scanText_units (offset : Nat) (units : List UInt16) (hrest : rest ≠ []) :
    scanText offset
        (units.flatMap (fun unit => '\\' :: 'u' :: Text.hexDigits 4 unit.toNat) ++ rest) =
      scanned (units.map UInt16.toNat) (scanText (offset + 6 * units.length) rest) := by
  induction units generalizing offset with
  | nil => exact (scanned_nil _).symm
  | cons unit units ih =>
    rw [List.flatMap_cons, List.append_assoc, scanText_unit offset unit (by simp [hrest]), ih,
      scanned_scanned, List.length_cons, Nat.mul_succ, Nat.add_right_comm offset, Nat.add_assoc]
    rfl

/-- Each character is scanned as its units. -/
theorem scanText_escapeChar (offset : Nat) (c : Char) (hrest : rest ≠ []) :
    scanText offset (escapeChar c ++ rest) =
      scanned (unitNumbers c) (scanText (offset + (escapeChar c).length) rest) := by
  rcases escapeChar_cases c with ⟨letter, hescape, hletter⟩ | ⟨hescape, hquote, hbackslash, hc⟩ |
    hescape
  · rw [hescape, unitNumbers_of_lt (unescape?_spec hletter).2.2.2]
    exact scanText_letter offset hletter
  · have hlt : c.toNat < 0x10000 := Nat.lt_of_le_of_lt hc.2 (by decide)
    rw [hescape, unitNumbers_of_lt hlt]
    exact scanText_self offset hquote hbackslash hc.1
  · have hlength : (escapeChar c).length = 6 * (Text.unitsOf c).length := by
      rw [hescape]
      induction Text.unitsOf c with
      | nil => rfl
      | cons unit units ih => simp [hexDigits_four, Nat.mul_succ] at ih ⊢; omega
    rw [hlength, hescape]
    exact scanText_units offset (Text.unitsOf c) hrest

theorem scanText_escape (offset : Nat) (s rest : List Char) :
    scanText offset (s.flatMap escapeChar ++ '"' :: rest) =
      .ok (s.flatMap unitNumbers, offset + (s.flatMap escapeChar).length + 1) := by
  induction s generalizing offset with
  | nil => rfl
  | cons c s ih =>
    rw [List.flatMap_cons, List.append_assoc, scanText_escapeChar offset c (by simp), ih]
    simp [scanned, Except.map, Nat.add_assoc]

/-- The token behind the opening quote of a written string is the string. -/
theorem lexText_escape (s : String) (rest : List Char) :
    lexText (s.toList.flatMap escapeChar ++ '"' :: rest) =
      (.text s, (s.toList.flatMap escapeChar).length + 2) := by
  simp only [lexText, scanText_escape, joinUnits_flatMap_unitNumbers, String.ofList_toList,
    Prod.mk.injEq, true_and]
  omega

/-! ## The characters of what is written -/

/-- A character of written JSON: a line feed, or one of the printable ASCII range. -/
def Written (c : Char) : Prop :=
  c = '\n' ∨ ' ' ≤ c ∧ c ≤ '~'

instance (c : Char) : Decidable (Written c) :=
  inferInstanceAs (Decidable (_ ∨ _))

theorem not_mem_of_written {text : List Char} {c : Char} (h : ∀ d ∈ text, Written d)
    (hc : ¬ Written c) : c ∉ text :=
  fun hmem => hc (h c hmem)

theorem written_of_mem_escapeChar {c d : Char} (h : d ∈ escapeChar c) : Written d := by
  rcases escapeChar_cases c with ⟨letter, hescape, hletter⟩ | ⟨hescape, -, -, hc⟩ | hescape
  · obtain ⟨hlow, hhigh, -⟩ := unescape?_spec hletter
    rw [hescape, List.mem_cons, List.mem_singleton] at h
    rcases h with rfl | rfl
    · decide
    · exact .inr ⟨hlow, hhigh⟩
  · rw [hescape, List.mem_singleton] at h
    exact .inr (h ▸ hc)
  · rw [hescape, List.mem_flatMap] at h
    obtain ⟨unit, -, hd⟩ := h
    have hdigit (n : Nat) : Written (Nat.digitChar (n % 16)) :=
      (by decide : ∀ n < 16, Written (Nat.digitChar n)) _ (Nat.mod_lt n (by decide))
    rw [hexDigits_four] at hd
    simp only [List.mem_cons, List.not_mem_nil, or_false] at hd
    rcases hd with rfl | rfl | rfl | rfl | rfl | rfl
    · decide
    · decide
    all_goals exact hdigit _

theorem written_writeText (s : String) : ∀ c ∈ (writeText s).toList, Written c := by
  rw [writeText, String.toList_ofList, List.cons_append]
  refine List.forall_mem_cons.mpr ⟨by decide, List.forall_mem_append.mpr ⟨?_, ?_⟩⟩
  · intro c hc
    obtain ⟨d, -, hd⟩ := List.mem_flatMap.mp hc
    exact written_of_mem_escapeChar hd
  · exact List.forall_mem_singleton.mpr (by decide)

end Cascade.Json
