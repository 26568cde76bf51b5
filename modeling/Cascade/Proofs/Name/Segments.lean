import Cascade.Proofs.Name.CamelCase
import Cascade.Text.Joined

/-!
# The segments of a kebab name

A kebab name is read as segments with hyphens between them, each made of small letters and digits
and beginning with a letter. In camel case the hyphens are gone and the segments begin with
capitals, so kebab case puts a hyphen back wherever the segment before ends in a small letter or a
digit. A segment of a single letter does not: it is a capital itself, and the next segment runs on
behind it (`rejoined`). The first segment stays small, and behind the last there is nothing to
put; so exactly the names whose other segments have two characters or more come back
(`camel_kebab_inverse`).
-/

namespace Cascade.Name

/-- Small ASCII letters and digits, a letter first. -/
structure Segment (s : List Char) : Prop where
  starts : s.head?.any Char.isLower = true
  plain : ∀ c ∈ s, c.isLower = true ∨ c.isDigit = true

instance (s : List Char) : Decidable (Segment s) :=
  have : Decidable (∀ c ∈ s, c.isLower = true ∨ c.isDigit = true) := List.decidableBAll _ s
  decidable_of_iff
    (s.head?.any Char.isLower = true ∧ ∀ c ∈ s, c.isLower = true ∨ c.isDigit = true)
    ⟨fun ⟨hstarts, hplain⟩ => ⟨hstarts, hplain⟩, fun h => ⟨h.starts, h.plain⟩⟩

/-- The kebab names with their segments. The vendor name `ms` in front has a hyphen before it. -/
inductive Segmented : String → List String → Prop
  | plain {segments : List String} (hsegments : ∀ s ∈ segments, Segment s.toList)
      (hvendor : ¬ "ms-".toList <+: ("-".intercalate segments).toList) :
      Segmented ("-".intercalate segments) segments
  | vendor {segment : String} {rest : List String}
      (hsegments : ∀ s ∈ "ms" :: segment :: rest, Segment s.toList) :
      Segmented ("-" ++ "-".intercalate ("ms" :: segment :: rest)) ("ms" :: segment :: rest)

/-! ## Characters of a segment -/

theorem endsWord_iff {c : Char} : endsWord c = true ↔ c.isLower = true ∨ c.isDigit = true := by
  rw [endsWord, Bool.or_eq_true]

/-- A capital starts words and ends none. -/
theorem endsWord_of_isUpper {c : Char} (h : c.isUpper = true) : endsWord c = false :=
  of_isUpper (p := fun c => endsWord c = false) (by decide) h

theorem isUpper_eq_false_of_endsWord {c : Char} (h : endsWord c = true) : c.isUpper = false := by
  rw [← Bool.not_eq_true]
  intro hupper
  rw [endsWord_of_isUpper hupper] at h
  cases h

/-- The capital of a small letter, and the letter from it. -/
theorem isUpper_toUpper_of_isLower {c : Char} (h : c.isLower = true) :
    c.toUpper.isUpper = true ∧ c.toUpper.toLower = c :=
  of_isLower (p := fun c => c.toUpper.isUpper = true ∧ c.toUpper.toLower = c) (by decide) h

theorem isAlphanum_of_endsWord {c : Char} (h : endsWord c = true) : c.isAlphanum = true := by
  rcases endsWord_iff.mp h with h | h
  · exact isAlphanum_of_isLower h
  · rw [Char.isAlphanum, h, Bool.or_true]

section

variable {s : List Char} {rest : List (List Char)}

theorem Segment.exists_cons (h : Segment s) :
    ∃ c tail, s = c :: tail ∧ c.isLower = true ∧ ∀ d ∈ tail, endsWord d = true := by
  obtain ⟨hstarts, hplain⟩ := h
  cases s with
  | nil => simp at hstarts
  | cons c tail =>
    obtain ⟨-, htail⟩ := List.forall_mem_cons.mp hplain
    exact ⟨c, tail, rfl, by simpa using hstarts, fun d hd => endsWord_iff.mpr (htail d hd)⟩

theorem Segment.hyphen_not_mem (h : Segment s) : '-' ∉ s := by
  intro hmem
  have hplain := h.plain '-' hmem
  revert hplain
  decide

theorem Segment.isAlphanum (h : Segment s) : ∀ c ∈ s, c.isAlphanum = true :=
  fun c hc => isAlphanum_of_endsWord (endsWord_iff.mpr (h.plain c hc))

/-! ## Into camel case -/

/-- A segment as it stands in camel case, behind another one. -/
def capitalize : List Char → List Char
  | [] => []
  | c :: tail => c.toUpper :: tail

theorem Segment.isAlphanum_capitalize (h : Segment s) :
    ∀ c ∈ capitalize s, c.isAlphanum = true := by
  obtain ⟨c, tail, rfl, hc, htail⟩ := h.exists_cons
  refine List.forall_mem_cons.mpr ⟨?_, fun d hd => isAlphanum_of_endsWord (htail d hd)⟩
  exact isAlphanum_of_isUpper (isUpper_toUpper_of_isLower hc).1

theorem camelize_append (h : '-' ∉ s) (tail : List Char) :
    camelize (s ++ tail) = s ++ camelize tail := by
  induction s with
  | nil => rfl
  | cons c s ih =>
    rw [List.mem_cons, not_or] at h
    rw [List.cons_append, camelize_cons_of_ne (Ne.symm h.1), ih h.2, List.cons_append]

theorem camelize_flatMap (h : ∀ s ∈ rest, Segment s) :
    camelize (rest.flatMap ('-' :: ·)) = rest.flatMap capitalize := by
  induction rest with
  | nil => rfl
  | cons s rest ih =>
    obtain ⟨hs, hrest⟩ := List.forall_mem_cons.mp h
    have hhyphen := hs.hyphen_not_mem
    obtain ⟨c, tail, rfl, -, -⟩ := hs.exists_cons
    rw [List.mem_cons, not_or] at hhyphen
    rw [List.flatMap_cons, List.flatMap_cons, List.cons_append, List.cons_append, camelize,
      camelize_append hhyphen.2, ih hrest]
    rfl

/-! ## Back to kebab case -/

/-- The segments behind another one as they come back. Whether there is a hyphen between two
depends on the first: none stands behind a single letter. -/
def rejoined (hyphen : Bool) : List (List Char) → List Char
  | [] => []
  | s :: rest => (if hyphen then '-' :: s else s) ++ rejoined (decide (2 ≤ s.length)) rest

/-- Small letters and digits stay as they are, and a hyphen may follow them. -/
theorem hyphenateBehind_append (h : ∀ c ∈ s, endsWord c = true) (before : Char)
    (tail : List Char) :
    ∃ last, hyphenateBehind before (s ++ tail) = s ++ hyphenateBehind last tail
      ∧ endsWord last = (endsWord before || ! s.isEmpty) := by
  induction s generalizing before with
  | nil => exact ⟨before, rfl, by simp⟩
  | cons c s ih =>
    obtain ⟨hc, hs⟩ := List.forall_mem_cons.mp h
    obtain ⟨last, heq, hlast⟩ := ih hs c
    refine ⟨last, ?_, by simp [hlast, hc]⟩
    rw [List.cons_append, hyphenateBehind, isUpper_eq_false_of_endsWord hc, Bool.and_false,
      if_neg (by simp), heq, List.cons_append]

theorem map_toLower_of_endsWord (h : ∀ c ∈ s, endsWord c = true) : s.map Char.toLower = s := by
  rw [List.map_congr_left fun c hc =>
    toLower_of_isUpper_eq_false (isUpper_eq_false_of_endsWord (h c hc)), List.map_id']

theorem hyphenateBehind_flatMap (h : ∀ s ∈ rest, Segment s) (before : Char) :
    (hyphenateBehind before (rest.flatMap capitalize)).map Char.toLower =
      rejoined (endsWord before) rest := by
  induction rest generalizing before with
  | nil => rfl
  | cons s rest ih =>
    obtain ⟨hs, hrest⟩ := List.forall_mem_cons.mp h
    obtain ⟨c, tail, rfl, hc, htail⟩ := hs.exists_cons
    obtain ⟨hupper, hlower⟩ := isUpper_toUpper_of_isLower hc
    have hends : endsWord c.toUpper = false := endsWord_of_isUpper hupper
    obtain ⟨last, heq, hlast⟩ := hyphenateBehind_append htail c.toUpper (rest.flatMap capitalize)
    have hlength : endsWord last = decide (2 ≤ (c :: tail).length) := by
      rw [hlast, hends, Bool.false_or]
      cases tail <;> simp
    rw [List.flatMap_cons, capitalize, List.cons_append, hyphenateBehind, hupper, Bool.and_true,
      heq, rejoined, ← hlength, ← ih hrest last]
    cases endsWord before <;> simp [hlower, map_toLower_of_endsWord htail]

/-- The segments come back as they were exactly if none that another one follows is a single
letter. -/
theorem rejoined_eq_flatMap_iff (h : ∀ s ∈ rest, Segment s) (hyphen : Bool) :
    rejoined hyphen rest = rest.flatMap ('-' :: ·) ↔
      (rest = [] ∨ hyphen = true) ∧ ∀ s ∈ rest.dropLast, 2 ≤ s.length := by
  induction rest generalizing hyphen with
  | nil => simp [rejoined]
  | cons s rest ih =>
    obtain ⟨hs, hrest⟩ := List.forall_mem_cons.mp h
    obtain ⟨c, tail, rfl, hc, -⟩ := hs.exists_cons
    cases hyphen with
    | false =>
      have hne : c ≠ '-' := ne_hyphen_of_isLower hc
      simp [rejoined, hne]
    | true =>
      simp only [rejoined, if_true, List.flatMap_cons, List.append_cancel_left_eq, ih hrest]
      cases rest with
      | nil => simp
      | cons next rest => simp

theorem rejoined_true_eq_flatMap_iff (h : ∀ s ∈ rest, Segment s) :
    rejoined true rest = rest.flatMap ('-' :: ·) ↔ ∀ s ∈ rest.dropLast, 2 ≤ s.length := by
  rw [rejoined_eq_flatMap_iff h, and_iff_right (.inr rfl)]

theorem lettered_capitalized (hs : Segment s) (hrest : ∀ t ∈ rest, Segment t) :
    Lettered (String.ofList (s ++ rest.flatMap capitalize)) where
  alphanumeric := by
    rw [String.toList_ofList]
    refine List.forall_mem_append.mpr ⟨hs.isAlphanum, fun c hc => ?_⟩
    obtain ⟨t, ht, hc⟩ := List.mem_flatMap.mp hc
    exact (hrest t ht).isAlphanum_capitalize c hc
  starts := by
    obtain ⟨c, tail, rfl, hc, -⟩ := hs.exists_cons
    simpa using hc

theorem toList_kebab_capitalized (hs : Segment s) (hrest : ∀ t ∈ rest, Segment t) :
    (kebab (String.ofList (s ++ rest.flatMap capitalize))).toList =
      markVendor (s ++ rejoined true rest) := by
  rw [(lettered_capitalized hs hrest).toList_kebab, String.toList_ofList]
  obtain ⟨c, tail, rfl, hc, htail⟩ := hs.exists_cons
  have hcWord : endsWord c = true := endsWord_iff.mpr (.inl hc)
  obtain ⟨last, heq, hlast⟩ := hyphenateBehind_append htail c (rest.flatMap capitalize)
  rw [hcWord, Bool.true_or] at hlast
  rw [List.cons_append, hyphenate_cons, heq, List.map_cons, List.map_append,
    toLower_of_isLower hc, map_toLower_of_endsWord htail, hyphenateBehind_flatMap hrest, hlast,
    List.cons_append]

/-- The first hyphen stands behind the first segment, whether or not the others come back. -/
theorem markVendor_rejoined (hs : Segment s)
    (hvendor : ¬ "ms-".toList <+: s ++ rest.flatMap ('-' :: ·)) :
    markVendor (s ++ rejoined true rest) = s ++ rejoined true rest := by
  refine markVendor_of_ne fun tail heq => ?_
  have hhyphen := hs.hyphen_not_mem
  cases rest with
  | nil => exact hvendor ⟨tail, by simpa [rejoined] using heq.symm⟩
  | cons next rest =>
    rw [rejoined, if_pos rfl] at heq
    rcases s with _ | ⟨a, _ | ⟨b, _ | ⟨c, s⟩⟩⟩
    · exact absurd (List.cons.inj heq).1 (by decide)
    · exact absurd (List.cons.inj (List.cons.inj heq).2).1 (by decide)
    · obtain rfl : a = 'm' := (List.cons.inj heq).1
      obtain rfl : b = 's' := (List.cons.inj (List.cons.inj heq).2).1
      exact hvendor ⟨next ++ rest.flatMap ('-' :: ·), rfl⟩
    · obtain rfl : c = '-' := (List.cons.inj (List.cons.inj (List.cons.inj heq).2).2).1
      exact hhyphen (by simp)

end

/-! ## Names -/

section

variable {first : String} {rest : List String}

theorem toList_intercalate_hyphen (first : String) (rest : List String) :
    ("-".intercalate (first :: rest)).toList =
      first.toList ++ (rest.map String.toList).flatMap ('-' :: ·) := by
  have hhyphen : "-".toList = ['-'] := rfl
  rw [String.toList_intercalate, List.map_cons, hhyphen, Text.intercalate_singleton_cons]

theorem camelize_segments (h : ∀ s ∈ first :: rest, Segment s.toList) :
    camelize ("-".intercalate (first :: rest)).toList =
      first.toList ++ (rest.map String.toList).flatMap capitalize := by
  obtain ⟨hfirst, hrest⟩ := List.forall_mem_cons.mp h
  rw [toList_intercalate_hyphen, camelize_append hfirst.hyphen_not_mem,
    camelize_flatMap (List.forall_mem_map.mpr hrest)]

theorem camel_segments (h : ∀ s ∈ first :: rest, Segment s.toList) :
    camel ("-".intercalate (first :: rest)) =
      String.ofList (first.toList ++ (rest.map String.toList).flatMap capitalize) := by
  rw [← camelize_segments h]
  obtain ⟨c, tail, hfirst, hc, -⟩ := (h first List.mem_cons_self).exists_cons
  have hname := toList_intercalate_hyphen first rest
  rw [hfirst, List.cons_append] at hname
  rw [camel_of_ne hname (ne_hyphen_of_isLower hc), hname]

theorem camel_hyphen_segments (h : ∀ s ∈ first :: rest, Segment s.toList) :
    camel ("-" ++ "-".intercalate (first :: rest)) =
      String.ofList (first.toList ++ (rest.map String.toList).flatMap capitalize) := by
  rw [← camelize_segments h]
  exact camel_of_hyphen (String.toList_append ..)

theorem forall_length_iff (rest : List String) :
    (∀ s ∈ (rest.map String.toList).dropLast, 2 ≤ s.length) ↔
      ∀ s ∈ rest.dropLast, 2 ≤ s.length := by
  rw [← List.map_dropLast, List.forall_mem_map]
  simp only [String.length_toList]

/-- What comes back is the same up to the hyphens behind single letters, vendor name or not. -/
theorem Segmented.kebab_camel_iff {name : String} {segments : List String}
    (h : Segmented name segments) :
    kebab (camel name) = name ↔ ∀ s ∈ segments.tail.dropLast, 2 ≤ s.length := by
  rw [← String.toList_inj]
  cases h with
  | @plain segments hsegments hvendor =>
    cases segments with
    | nil => exact iff_of_true (by decide) (by simp)
    | cons first rest =>
      obtain ⟨hfirst, hrest⟩ := List.forall_mem_cons.mp hsegments
      have hrest : ∀ t ∈ rest.map String.toList, Segment t := List.forall_mem_map.mpr hrest
      rw [toList_intercalate_hyphen] at hvendor
      rw [camel_segments hsegments, toList_kebab_capitalized hfirst hrest,
        markVendor_rejoined hfirst hvendor, toList_intercalate_hyphen, List.append_cancel_left_eq,
        rejoined_true_eq_flatMap_iff hrest, forall_length_iff, List.tail_cons]
  | @vendor segment rest hsegments =>
    obtain ⟨hfirst, hrest⟩ := List.forall_mem_cons.mp hsegments
    have hrest : ∀ t ∈ (segment :: rest).map String.toList, Segment t :=
      List.forall_mem_map.mpr hrest
    have hmark : markVendor ("ms".toList ++ rejoined true ((segment :: rest).map String.toList)) =
        '-' :: ("ms".toList ++ rejoined true ((segment :: rest).map String.toList)) := rfl
    have hname : ("-" ++ "-".intercalate ("ms" :: segment :: rest)).toList =
        '-' :: ("ms".toList ++ ((segment :: rest).map String.toList).flatMap ('-' :: ·)) := by
      rw [String.toList_append, toList_intercalate_hyphen]
      rfl
    rw [camel_hyphen_segments hsegments, toList_kebab_capitalized hfirst hrest, hmark, hname,
      List.cons_inj_right, List.append_cancel_left_eq, rejoined_true_eq_flatMap_iff hrest,
      forall_length_iff, List.tail_cons]

/-- **Kebab case and camel case undo each other.** A name in camel case comes back from its kebab
form, so two such names never share one. A kebab name comes back from its camel case exactly if
each of its segments but the first and the last has two characters or more. -/
theorem camel_kebab_inverse :
    (∀ name, CamelCase name → camel (kebab name) = name)
    ∧ (∀ name other, CamelCase name → CamelCase other → kebab name = kebab other → name = other)
    ∧ ∀ name segments, Segmented name segments →
      (kebab (camel name) = name ↔ ∀ s ∈ segments.tail.dropLast, 2 ≤ s.length) := by
  refine ⟨fun name h => h.camel_kebab, fun name other h h' heq => ?_, fun name segments h =>
    h.kebab_camel_iff⟩
  rw [← h.camel_kebab, heq, h'.camel_kebab]

/-- A vendor name whose segments are long enough, and its camel case. -/
theorem camel_kebab_inverse_vendor :
    CamelCase "msGrid2D" ∧ camel (kebab "msGrid2D") = "msGrid2D"
    ∧ Segmented "-ms-grid2-d" ["ms", "grid2", "d"]
    ∧ kebab (camel "-ms-grid2-d") = "-ms-grid2-d" := by
  obtain ⟨hcamel, -, hkebab⟩ := camel_kebab_inverse
  have hname : CamelCase "msGrid2D" := by decide
  have hspelled : "-" ++ "-".intercalate ["ms", "grid2", "d"] = "-ms-grid2-d" := by decide
  have hsegmented : Segmented "-ms-grid2-d" ["ms", "grid2", "d"] :=
    hspelled ▸ .vendor (by decide)
  exact ⟨hname, hcamel _ hname, hsegmented, (hkebab _ _ hsegmented).mpr (by decide)⟩

/-- The single letter in the middle becomes a capital, and no hyphen comes back behind it. -/
theorem kebab_camel_single_letter :
    Segmented "a-b-c" ["a", "b", "c"] ∧ camel "a-b-c" = "aBC" ∧ kebab (camel "a-b-c") = "a-bc"
      ∧ kebab (camel "a-b-c") ≠ "a-b-c" := by
  have hspelled : "-".intercalate ["a", "b", "c"] = "a-b-c" := by decide
  have hkebab : kebab (camel "a-b-c") = "a-bc" := by decide +kernel
  refine ⟨hspelled ▸ .plain (by decide) (by decide), by decide, hkebab, ?_⟩
  rw [hkebab]
  decide

end

end Cascade.Name
