/-!
# Joined texts

The characters of texts that are joined by a separator are those of the texts and those of the
separator. A separator that does not stand in the second of two parts tells where that part
begins.
-/

namespace Cascade.Text

variable {separator : List Char} {texts : List (List Char)}

theorem mem_intercalate_of_mem {c : Char} {text : List Char} (htext : text ∈ texts)
    (hc : c ∈ text) : c ∈ separator.intercalate texts := by
  induction texts with
  | nil => cases htext
  | cons first rest ih =>
    cases rest with
    | nil =>
      obtain rfl := List.mem_singleton.mp htext
      rwa [List.intercalate_singleton]
    | cons next rest =>
      rw [List.intercalate_cons_cons, List.mem_append, List.mem_append]
      rcases List.mem_cons.mp htext with rfl | htext
      · exact .inl (.inl hc)
      · exact .inr (ih htext)

theorem forall_mem_intercalate {p : Char → Prop} (hseparator : ∀ c ∈ separator, p c)
    (htexts : ∀ text ∈ texts, ∀ c ∈ text, p c) : ∀ c ∈ separator.intercalate texts, p c := by
  induction texts with
  | nil => exact nofun
  | cons first rest ih =>
    obtain ⟨hfirst, hrest⟩ := List.forall_mem_cons.mp htexts
    cases rest with
    | nil => rwa [List.intercalate_singleton]
    | cons next rest =>
      rw [List.intercalate_cons_cons]
      exact List.forall_mem_append.mpr ⟨List.forall_mem_append.mpr ⟨hfirst, hseparator⟩, ih hrest⟩

theorem not_mem_intercalate {c : Char} (hseparator : c ∉ separator)
    (htexts : ∀ text ∈ texts, c ∉ text) : c ∉ separator.intercalate texts := by
  have hne : ∀ d ∈ separator.intercalate texts, d ≠ c :=
    forall_mem_intercalate (fun d hd => ne_of_mem_of_not_mem hd hseparator)
      fun text htext d hd => ne_of_mem_of_not_mem hd (htexts text htext)
  exact fun hc => hne c hc rfl

theorem intercalate_singleton_cons (c : Char) (first : List Char) :
    [c].intercalate (first :: texts) = first ++ texts.flatMap (c :: ·) := by
  induction texts generalizing first with
  | nil => simp
  | cons next rest ih =>
    rw [List.intercalate_cons_cons, ih, List.flatMap_cons, List.append_assoc,
      List.singleton_append, List.cons_append]

/-- The last separator tells where the second part begins. -/
theorem append_separator_inj {α : Type} {sep : α} {a b x y : List α} (hx : sep ∉ x)
    (hy : sep ∉ y) :
    a ++ sep :: x = b ++ sep :: y ↔ a = b ∧ x = y := by
  refine ⟨fun h => ?_, fun ⟨hab, hxy⟩ => by rw [hab, hxy]⟩
  rcases List.append_eq_append_iff.mp h with ⟨between, hb, htail⟩ | ⟨between, ha, htail⟩
  · cases between with
    | nil =>
      rw [List.append_nil] at hb
      exact ⟨hb.symm, List.cons_inj_right sep |>.mp htail⟩
    | cons first between =>
      have hrest : x = between ++ sep :: y := (List.cons.inj htail).2
      exact absurd (hrest ▸ List.mem_append_right between List.mem_cons_self) hx
  · cases between with
    | nil =>
      rw [List.append_nil] at ha
      exact ⟨ha, (List.cons_inj_right sep |>.mp htail).symm⟩
    | cons first between =>
      have hrest : y = between ++ sep :: x := (List.cons.inj htail).2
      exact absurd (hrest ▸ List.mem_append_right between List.mem_cons_self) hy

end Cascade.Text
