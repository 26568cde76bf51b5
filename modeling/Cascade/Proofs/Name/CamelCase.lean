import Cascade.Name
import Mathlib.Data.List.Chain

/-!
# Names in camel case

For names in camel case, kebab case loses nothing: a hyphen stands exactly before each capital, so
`camel` gives the name back (`camel_kebab`), and two such names never share a kebab form. What
comes out has neither capitals nor a vendor name left to mark, so kebab case changes nothing when
it is applied again (`kebab_kebab`).
-/

namespace Cascade.Name

/-! ## Characters -/

theorem toNat_lt_of_isAlphanum {c : Char} (h : c.isAlphanum = true) : c.toNat < 0x80 := by
  rcases Bool.or_eq_true_iff.mp h with h | h
  · rcases Bool.or_eq_true_iff.mp h with h | h
    · have hle : c.toNat ≤ 90 := (of_decide_eq_true h).2
      omega
    · have hle : c.toNat ≤ 122 := of_decide_eq_true (Bool.and_eq_true_iff.mp h).2
      omega
  · have hle : c.toNat ≤ 57 := of_decide_eq_true (Bool.and_eq_true_iff.mp h).2
    omega

theorem isAlphanum_of_isUpper {c : Char} (h : c.isUpper = true) : c.isAlphanum = true := by
  show (c.isUpper || c.isLower || c.isDigit) = true
  rw [h, Bool.true_or, Bool.true_or]

theorem isAlphanum_of_isLower {c : Char} (h : c.isLower = true) : c.isAlphanum = true := by
  show (c.isUpper || c.isLower || c.isDigit) = true
  rw [h, Bool.or_true, Bool.true_or]

/-- What can be looked up for each ASCII character holds of every character below 0x80. -/
theorem of_forall_ascii {p : Char → Prop} (hall : ∀ n < 0x80, p (Char.ofNat n)) {c : Char}
    (h : c.toNat < 0x80) : p c :=
  Char.ofNat_toNat c ▸ hall c.toNat h

theorem of_isUpper {p : Char → Prop}
    (hall : ∀ n < 0x80, (Char.ofNat n).isUpper = true → p (Char.ofNat n)) {c : Char}
    (h : c.isUpper = true) : p c :=
  of_forall_ascii (p := fun c => c.isUpper = true → p c) hall
    (toNat_lt_of_isAlphanum (isAlphanum_of_isUpper h)) h

theorem of_isLower {p : Char → Prop}
    (hall : ∀ n < 0x80, (Char.ofNat n).isLower = true → p (Char.ofNat n)) {c : Char}
    (h : c.isLower = true) : p c :=
  of_forall_ascii (p := fun c => c.isLower = true → p c) hall
    (toNat_lt_of_isAlphanum (isAlphanum_of_isLower h)) h

theorem toLower_of_isUpper_eq_false {c : Char} (h : c.isUpper = false) : c.toLower = c :=
  dif_neg (of_decide_eq_false h)

theorem toLower_of_isLower {c : Char} (h : c.isLower = true) : c.toLower = c :=
  of_isLower (p := fun c => c.toLower = c) (by decide) h

theorem toUpper_toLower_of_isUpper {c : Char} (h : c.isUpper = true) : c.toLower.toUpper = c :=
  of_isUpper (p := fun c => c.toLower.toUpper = c) (by decide) h

theorem small_toLower_of_lt {c : Char} (h : c.toNat < 0x80) :
    c.toLower.toNat < 0x80 ∧ c.toLower.isUpper = false :=
  of_forall_ascii (p := fun c => c.toLower.toNat < 0x80 ∧ c.toLower.isUpper = false) (by decide) h

theorem ne_hyphen_of_isLower {c : Char} (h : c.isLower = true) : c ≠ '-' := by
  rintro rfl
  revert h
  decide

theorem toLower_eq_hyphen {c : Char} (h : c.toLower = '-') : c = '-' := by
  cases hupper : c.isUpper with
  | true =>
    -- The capital of a hyphen would be the hyphen.
    rw [← toUpper_toLower_of_isUpper hupper, h]
    rfl
  | false => rwa [toLower_of_isUpper_eq_false hupper] at h

theorem ne_hyphen_of_isAlphanum {c : Char} (h : c.isAlphanum = true) : c ≠ '-' := by
  rintro rfl
  revert h
  decide

/-- ASCII text has no letters with a lower case of their own kind. -/
theorem lowerFrom_of_ascii {s : List Char} (h : ∀ c ∈ s, c.toNat < 0x80) (afterCased : Bool) :
    Text.lowerFrom afterCased s = s.map Char.toLower := by
  induction s generalizing afterCased with
  | nil => rfl
  | cons c rest ih =>
    obtain ⟨hc, hrest⟩ := List.forall_mem_cons.mp h
    have hsigma : c ≠ 'Σ' := by
      rintro rfl
      revert hc
      decide
    rw [Text.lowerFrom, ih hrest, if_neg hsigma, Text.lowerChar, if_pos hc]
    rfl

/-! ## Hyphens -/

/-- The characters behind `before`, with a hyphen before each capital that starts a new word. -/
def hyphenateBehind (before : Char) : List Char → List Char
  | [] => []
  | c :: rest =>
    if endsWord before && c.isUpper then '-' :: c :: hyphenateBehind c rest
    else c :: hyphenateBehind c rest

theorem hyphenate_cons (c : Char) (rest : List Char) :
    hyphenate (c :: rest) = c :: hyphenateBehind c rest := by
  induction rest generalizing c with
  | nil => rfl
  | cons d rest ih =>
    rw [hyphenate, hyphenateBehind]
    split
    · rw [ih]
    · rw [ih]

/-- Takes the hyphens out again and makes the letters behind them capitals. -/
def camelize : List Char → List Char
  | '-' :: c :: rest => c.toUpper :: camelize rest
  | c :: rest => c :: camelize rest
  | [] => []

theorem camelize_cons_of_ne {c : Char} (h : c ≠ '-') (rest : List Char) :
    camelize (c :: rest) = c :: camelize rest := by
  rw [camelize]
  rintro d tail hc -
  exact absurd hc h

/-- A capital stands only behind a small letter or a digit. -/
def Follows (before c : Char) : Prop :=
  c.isUpper = true → endsWord before = true

instance (before c : Char) : Decidable (Follows before c) :=
  inferInstanceAs (Decidable (_ → _))

variable {before : Char} {rest : List Char}

theorem camelize_hyphenateBehind (hchain : (before :: rest).IsChain Follows)
    (h : ∀ c ∈ rest, c.isAlphanum = true) :
    camelize ((hyphenateBehind before rest).map Char.toLower) = rest := by
  induction rest generalizing before with
  | nil => rfl
  | cons c rest ih =>
    obtain ⟨hc, hrest⟩ := List.forall_mem_cons.mp h
    obtain ⟨hfollows, hchain⟩ := List.isChain_cons_cons.mp hchain
    rw [hyphenateBehind]
    cases hupper : c.isUpper with
    | true =>
      rw [hfollows hupper, Bool.and_true, if_pos rfl]
      show camelize ('-' :: c.toLower :: _) = _
      rw [camelize, toUpper_toLower_of_isUpper hupper, ih hchain hrest]
    | false =>
      have hlower : c.toLower = c := toLower_of_isUpper_eq_false hupper
      rw [Bool.and_false, if_neg (by simp), List.map_cons, hlower,
        camelize_cons_of_ne (ne_hyphen_of_isAlphanum hc), ih hchain hrest]

theorem mem_hyphenateBehind {c : Char} (h : c ∈ hyphenateBehind before rest) :
    c = '-' ∨ c ∈ rest := by
  induction rest generalizing before with
  | nil => cases h
  | cons d rest ih =>
    rw [hyphenateBehind] at h
    split at h
    · rcases List.mem_cons.mp h with rfl | h
      · exact .inl rfl
      · rcases List.mem_cons.mp h with rfl | h
        · exact .inr List.mem_cons_self
        · exact (ih h).imp_right (List.mem_cons_of_mem d)
    · rcases List.mem_cons.mp h with rfl | h
      · exact .inr List.mem_cons_self
      · exact (ih h).imp_right (List.mem_cons_of_mem d)

/-- Where there are no capitals, there is nothing to do. -/
theorem hyphenate_of_no_capital {s : List Char} (h : ∀ c ∈ s, c.isUpper = false) :
    hyphenate s = s := by
  cases s with
  | nil => rfl
  | cons c rest =>
    rw [hyphenate_cons]
    congr 1
    induction rest generalizing c with
    | nil => rfl
    | cons d rest ih =>
      obtain ⟨-, hrest⟩ := List.forall_mem_cons.mp h
      rw [hyphenateBehind, hrest d List.mem_cons_self, Bool.and_false, if_neg (by simp),
        ih d hrest]

/-! ## The vendor name -/

theorem markVendor_of_ne {s : List Char} (h : ∀ rest, s ≠ 'm' :: 's' :: '-' :: rest) :
    markVendor s = s := by
  fun_cases markVendor s with
  | case1 rest => exact absurd rfl (h rest)
  | case2 => rfl

theorem markVendor_markVendor (s : List Char) : markVendor (markVendor s) = markVendor s := by
  fun_cases markVendor s with
  | case1 => rfl
  | case2 _ h => exact markVendor_of_ne h

theorem markVendor_eq_or (s : List Char) : markVendor s = s ∨ markVendor s = '-' :: s := by
  fun_cases markVendor s with
  | case1 => exact .inr rfl
  | case2 => exact .inl rfl

theorem mem_markVendor {s : List Char} {c : Char} (h : c ∈ markVendor s) : c = '-' ∨ c ∈ s := by
  rcases markVendor_eq_or s with heq | heq
  · exact .inr (heq ▸ h)
  · exact List.mem_cons.mp (heq ▸ h)

/-- A capital in third place has its hyphen before it, so the vendor name can be told before
lower-casing or behind it. -/
theorem markVendor_map_toLower {c : Char} (hc : c.isLower = true)
    (h : ∀ d ∈ rest, d.isAlphanum = true) :
    markVendor ((c :: hyphenateBehind c rest).map Char.toLower) =
      (markVendor (c :: hyphenateBehind c rest)).map Char.toLower := by
  by_cases hvendor : ∃ tail, c :: hyphenateBehind c rest = 'm' :: 's' :: '-' :: tail
  · obtain ⟨tail, htail⟩ := hvendor
    rw [htail]
    rfl
  · rw [markVendor_of_ne (not_exists.mp hvendor), markVendor_of_ne]
    intro tail heq
    rw [List.map_cons, toLower_of_isLower hc] at heq
    obtain ⟨rfl, heq⟩ := List.cons.inj heq
    refine hvendor ?_
    cases rest with
    | nil => cases heq
    | cons d rest =>
      obtain ⟨-, hrest⟩ := List.forall_mem_cons.mp h
      have hm : endsWord 'm' = true := by decide
      have hs : endsWord 's' = true := by decide
      rw [hyphenateBehind, hm, Bool.true_and] at heq ⊢
      cases hd : d.isUpper with
      | true =>
        rw [hd, if_pos rfl] at heq
        exact absurd (List.cons.inj heq).1 (by decide)
      | false =>
        rw [hd, if_neg (by simp), List.map_cons,
          toLower_of_isUpper_eq_false hd] at heq
        obtain ⟨rfl, heq⟩ := List.cons.inj heq
        cases rest with
        | nil => cases heq
        | cons e rest =>
          rw [hyphenateBehind, hs, Bool.true_and] at heq ⊢
          cases he : e.isUpper with
          | true => exact ⟨_, rfl⟩
          | false =>
            rw [he, if_neg (by simp)] at heq
            have hhyphen := toLower_eq_hyphen (List.cons.inj heq).1
            exact absurd hhyphen (ne_hyphen_of_isAlphanum (hrest e List.mem_cons_self))

/-! ## Names -/

/-- ASCII letters and digits, a small letter first, and every capital right behind a small letter
or a digit. -/
structure CamelCase (name : String) : Prop where
  alphanumeric : ∀ c ∈ name.toList, c.isAlphanum = true
  starts : name.toList.head?.any Char.isLower = true
  capitals : name.toList.IsChain Follows

instance (name : String) : Decidable (CamelCase name) :=
  have : Decidable (∀ c ∈ name.toList, c.isAlphanum = true) := List.decidableBAll _ name.toList
  decidable_of_iff
    ((∀ c ∈ name.toList, c.isAlphanum = true) ∧ name.toList.head?.any Char.isLower = true
      ∧ name.toList.IsChain Follows)
    ⟨fun ⟨halphanumeric, hstarts, hcapitals⟩ => ⟨halphanumeric, hstarts, hcapitals⟩,
      fun h => ⟨h.alphanumeric, h.starts, h.capitals⟩⟩

/-- The name in camel case whose kebab case this is. -/
def camel (name : String) : String :=
  String.ofList <|
    match name.toList with
    | '-' :: rest => camelize rest
    | cs => camelize cs

theorem camel_of_hyphen {name : String} {rest : List Char} (h : name.toList = '-' :: rest) :
    camel name = String.ofList (camelize rest) := by
  simp only [camel, h]

theorem camel_of_ne {name : String} {c : Char} {rest : List Char} (h : name.toList = c :: rest)
    (hne : c ≠ '-') : camel name = String.ofList (camelize (c :: rest)) := by
  rw [camel, h]
  split
  · rename_i hhyphen
    exact absurd (List.cons.inj hhyphen).1 hne
  · rfl

section

variable {name other : String}

/-- ASCII letters and digits, a small letter first; capitals stand anywhere. -/
structure Lettered (name : String) : Prop where
  alphanumeric : ∀ c ∈ name.toList, c.isAlphanum = true
  starts : name.toList.head?.any Char.isLower = true

theorem CamelCase.lettered (h : CamelCase name) : Lettered name :=
  ⟨h.alphanumeric, h.starts⟩

theorem Lettered.exists_cons (h : Lettered name) :
    ∃ c rest, name.toList = c :: rest ∧ c.isLower = true ∧ ∀ d ∈ rest, d.isAlphanum = true := by
  obtain ⟨halphanumeric, hstarts⟩ := h
  cases hname : name.toList with
  | nil => simp [hname] at hstarts
  | cons c rest =>
    rw [hname] at halphanumeric hstarts
    exact ⟨c, rest, rfl, by simpa using hstarts, (List.forall_mem_cons.mp halphanumeric).2⟩

theorem CamelCase.exists_cons (h : CamelCase name) :
    ∃ c rest, name.toList = c :: rest ∧ c.isLower = true ∧ (∀ d ∈ rest, d.isAlphanum = true)
      ∧ (c :: rest).IsChain Follows := by
  obtain ⟨c, rest, hname, hc, hrest⟩ := h.lettered.exists_cons
  exact ⟨c, rest, hname, hc, hrest, hname ▸ h.capitals⟩

theorem Lettered.isCustom_eq_false (h : Lettered name) : isCustom name = false := by
  obtain ⟨c, rest, hname, hc, -⟩ := h.exists_cons
  simp [isCustom, hname, List.isPrefixOf, (ne_hyphen_of_isLower hc).symm]

theorem Lettered.lt_of_mem_markVendor_hyphenate (h : Lettered name) :
    ∀ c ∈ markVendor (hyphenate name.toList), c.toNat < 0x80 := by
  obtain ⟨first, rest, hname, -, -⟩ := h.exists_cons
  have halphanumeric := h.alphanumeric
  rw [hname] at halphanumeric ⊢
  intro c hc
  rcases mem_markVendor hc with rfl | hc
  · decide
  · rw [hyphenate_cons] at hc
    rcases List.mem_cons.mp hc with rfl | hc
    · exact toNat_lt_of_isAlphanum (halphanumeric c List.mem_cons_self)
    · rcases mem_hyphenateBehind hc with rfl | hc
      · decide
      · exact toNat_lt_of_isAlphanum (halphanumeric c (List.mem_cons_of_mem first hc))

theorem Lettered.toList_kebab_eq_map (h : Lettered name) :
    (kebab name).toList = (markVendor (hyphenate name.toList)).map Char.toLower := by
  rw [kebab, h.isCustom_eq_false, if_neg (by simp), String.toList_ofList,
    lowerFrom_of_ascii h.lt_of_mem_markVendor_hyphenate]

/-- The kebab form is made in three steps: hyphens, then small letters, then the vendor name. -/
theorem Lettered.toList_kebab (h : Lettered name) :
    (kebab name).toList = markVendor ((hyphenate name.toList).map Char.toLower) := by
  obtain ⟨c, rest, hname, hc, hrest⟩ := h.exists_cons
  rw [h.toList_kebab_eq_map, hname, hyphenate_cons, markVendor_map_toLower hc hrest]

/-- Kebab case loses nothing of a name in camel case. -/
theorem CamelCase.camel_kebab (h : CamelCase name) : camel (kebab name) = name := by
  obtain ⟨c, rest, hname, hc, hrest, hcapitals⟩ := h.exists_cons
  have hne : c ≠ '-' := ne_hyphen_of_isLower hc
  have hback : camelize (c :: (hyphenateBehind c rest).map Char.toLower) = name.toList := by
    rw [camelize_cons_of_ne hne, camelize_hyphenateBehind hcapitals hrest, hname]
  have hkebab :
      (kebab name).toList = markVendor (c :: (hyphenateBehind c rest).map Char.toLower) := by
    rw [h.lettered.toList_kebab, hname, hyphenate_cons, List.map_cons, toLower_of_isLower hc]
  rcases markVendor_eq_or (c :: (hyphenateBehind c rest).map Char.toLower) with heq | heq
  · rw [camel_of_ne (hkebab.trans heq) hne, hback, String.ofList_toList]
  · rw [camel_of_hyphen (hkebab.trans heq), hback, String.ofList_toList]

/-- The kebab form starts with a small letter, or with one behind a hyphen. -/
theorem CamelCase.toList_kebab_eq_or (h : CamelCase name) :
    ∃ c rest, c.isLower = true
      ∧ ((kebab name).toList = c :: rest ∨ (kebab name).toList = '-' :: c :: rest) := by
  obtain ⟨c, rest, hname, hc, -, -⟩ := h.exists_cons
  rw [h.lettered.toList_kebab, hname, hyphenate_cons, List.map_cons, toLower_of_isLower hc]
  exact ⟨c, _, hc, markVendor_eq_or _⟩

theorem CamelCase.isCustom_kebab_eq_false (h : CamelCase name) :
    isCustom (kebab name) = false := by
  obtain ⟨c, rest, hc, heq | heq⟩ := h.toList_kebab_eq_or
  · simp [isCustom, heq, List.isPrefixOf, (ne_hyphen_of_isLower hc).symm]
  · simp [isCustom, heq, List.isPrefixOf, (ne_hyphen_of_isLower hc).symm]

theorem CamelCase.kebab_kebab (h : CamelCase name) : kebab (kebab name) = kebab name := by
  have hsmall :
      ∀ c ∈ (kebab name).toList, c.toNat < 0x80 ∧ c.toLower = c ∧ c.isUpper = false := by
    rw [h.lettered.toList_kebab_eq_map, List.forall_mem_map]
    intro c hc
    obtain ⟨hlt, hupper⟩ := small_toLower_of_lt (h.lettered.lt_of_mem_markVendor_hyphenate c hc)
    exact ⟨hlt, toLower_of_isUpper_eq_false hupper, hupper⟩
  have hvendor : markVendor (kebab name).toList = (kebab name).toList := by
    rw [h.lettered.toList_kebab, markVendor_markVendor]
  rw [kebab, h.isCustom_kebab_eq_false, if_neg (by simp),
    hyphenate_of_no_capital fun c hc => (hsmall c hc).2.2, hvendor,
    lowerFrom_of_ascii fun c hc => (hsmall c hc).1,
    List.map_congr_left fun c hc => (hsmall c hc).2.1, List.map_id', String.ofList_toList]

end

/-! ## Property names -/

/-- A name in camel case, or one that keeps its spelling. -/
def Regular (name : String) : Prop :=
  CamelCase name ∨ isCustom name = true

section

variable {name other : String}

theorem kebab_of_isCustom (h : isCustom name = true) : kebab name = name := by
  rw [kebab, if_pos h]

theorem Regular.kebab_kebab (h : Regular name) : kebab (kebab name) = kebab name := by
  rcases h with h | h
  · exact h.kebab_kebab
  · rw [kebab_of_isCustom h, kebab_of_isCustom h]

/-- Different regular names have different kebab forms. -/
theorem Regular.kebab_inj (h : Regular name) (h' : Regular other) :
    kebab name = kebab other ↔ name = other := by
  refine ⟨fun heq => ?_, congrArg kebab⟩
  rcases h with h | h <;> rcases h' with h' | h'
  · rw [← h.camel_kebab, heq, h'.camel_kebab]
  · rw [kebab_of_isCustom h'] at heq
    rw [← heq, h.isCustom_kebab_eq_false] at h'
    cases h'
  · rw [kebab_of_isCustom h] at heq
    rw [heq, h'.isCustom_kebab_eq_false] at h
    cases h
  · rwa [kebab_of_isCustom h, kebab_of_isCustom h'] at heq

end

end Cascade.Name
