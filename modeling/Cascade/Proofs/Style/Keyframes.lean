import Cascade.Proofs.Style.Variants

/-!
# Keyframes

The frames of keyframes hold plain declarations, and so may a style object (`Members.Flat`).
Compiling one gives a single rule, whose body says what is declared (`compilesToBody_iff`); a
frame of keyframes has a body as well. The two are put together apart from each other: compiling
passes over null values, while a frame writes each null out, as the text `None`.
`keyframes_bodies` says that this is all that differs.
-/

namespace Cascade

/-! ## Bodies -/

section

variable {declarations fewer : List Declaration}

theorem Declaration.length_text_pos (d : Declaration) : 0 < d.text.length := by
  simp only [text, String.length_append]
  have hend : ";".length = 1 := by decide
  omega

theorem declarationsText_cons (d : Declaration) (h : declarations ≠ []) :
    declarationsText (d :: declarations) = d.text ++ " " ++ declarationsText declarations :=
  String.intercalate_cons_of_ne_nil (by simpa using h)

theorem length_declarationsText_cons (d : Declaration) (declarations : List Declaration) :
    (declarationsText declarations).length < (declarationsText (d :: declarations)).length := by
  have hpos := d.length_text_pos
  by_cases h : declarations = []
  · simpa [h, declarationsText] using hpos
  · rw [declarationsText_cons d h, String.length_append]
    simp only [String.length_append]
    omega

/-- Leaving declarations out makes the text shorter. -/
theorem length_declarationsText_lt (h : fewer.Sublist declarations) (hne : fewer ≠ declarations) :
    (declarationsText fewer).length < (declarationsText declarations).length := by
  induction h with
  | slnil => exact absurd rfl hne
  | @cons fewer rest d h ih =>
    by_cases hsame : fewer = rest
    · rw [hsame]
      exact length_declarationsText_cons d rest
    · exact Nat.lt_trans (ih hsame) (length_declarationsText_cons d rest)
  | @cons_cons fewer rest d h ih =>
    have hlt := ih fun hsame => hne (by rw [hsame])
    have hrest : rest ≠ [] := by
      rintro rfl
      exact absurd hlt (Nat.not_lt_zero _)
    rw [declarationsText_cons d hrest, String.length_append, String.length_append]
    -- The space stands behind a declaration only if there is another one.
    by_cases hfewer : fewer = []
    · simp only [hfewer, declarationsText, List.map_cons, List.map_nil,
        String.intercalate_singleton]
      have hspace : " ".length = 1 := by decide
      omega
    · rw [declarationsText_cons d hfewer, String.length_append, String.length_append]
      omega

/-- Some of the declarations have the text of all only if they are all. -/
theorem eq_of_declarationsText_eq (h : fewer.Sublist declarations)
    (htext : declarationsText fewer = declarationsText declarations) : fewer = declarations :=
  Classical.byContradiction fun hne =>
    absurd (congrArg String.length htext) (Nat.ne_of_lt (length_declarationsText_lt h hne))

theorem declarationsText_eq_empty_iff :
    declarationsText declarations = "" ↔ declarations = [] := by
  constructor
  · exact fun h => (eq_of_declarationsText_eq (List.nil_sublist _) h.symm).symm
  · rintro rfl
    rfl

end

/-! ## Flat style objects -/

namespace Members

/-- Every entry is a property, and none holds an object. -/
def Flat (style : Members) : Prop :=
  ∀ entry ∈ style, KeyKind.ofKey entry.1 = .property ∧ entry.2.members? = none

instance (style : Members) : Decidable style.Flat :=
  inferInstanceAs (Decidable (∀ entry ∈ style, _))

/-- The style object with each null as the text `None`. -/
def spellNulls (style : Members) : Members :=
  style.map fun (key, value) => (key, if value.isNull then .str "None" else value)

variable {style : Members}

theorem Flat.children_eq_nil (h : style.Flat) : style.children = [] := by
  refine List.eq_nil_iff_forall_not_mem.mpr fun child hchild => ?_
  obtain ⟨⟨key, value⟩, hentry, hchild⟩ := mem_children_iff_entry.mp hchild
  rw [children_property (h _ hentry).1] at hchild
  cases hchild

theorem Flat.wellFormed (h : style.Flat) : style.WellFormed := by
  refine wellFormed_iff_forall_entry.mpr ?_
  rintro ⟨key, value⟩ hentry
  obtain ⟨hkey, hvalue⟩ := h _ hentry
  exact (wellFormed_property_iff hkey).mpr hvalue

theorem properties_sublist (style : Members) : style.properties.Sublist style :=
  List.filter_sublist.trans List.filter_sublist

theorem Flat.properties_eq (h : style.Flat) :
    style.properties = style.filter fun (_, value) => ! value.isNull := by
  have hall : style.ofKind .property = style :=
    List.filter_eq_self.mpr fun entry hentry => decide_eq_true (h entry hentry).1
  rw [properties, hall]

theorem Flat.properties_eq_self_iff (h : style.Flat) :
    style.properties = style ↔ ∀ entry ∈ style, entry.2 ≠ .null := by
  rw [h.properties_eq, List.filter_eq_self]
  refine forall₂_congr fun entry _ => ?_
  obtain ⟨key, value⟩ := entry
  cases value <;> simp [Value.isNull]

theorem Flat.spellNulls (h : style.Flat) : style.spellNulls.Flat := by
  intro entry hentry
  obtain ⟨⟨key, value⟩, hmem, rfl⟩ := List.mem_map.mp hentry
  obtain ⟨hkey, hvalue⟩ := h _ hmem
  refine ⟨hkey, ?_⟩
  dsimp only
  split
  · rfl
  · exact hvalue

theorem ne_null_of_mem_spellNulls {entry : String × Value} (h : entry ∈ style.spellNulls) :
    entry.2 ≠ .null := by
  obtain ⟨⟨key, value⟩, -, rfl⟩ := List.mem_map.mp h
  cases value <;> simp [Value.isNull]

/-- A declaration shows a null as the text `None`. -/
theorem map_ofMember_spellNulls (style : Members) :
    style.spellNulls.map Declaration.ofMember = style.map Declaration.ofMember := by
  rw [spellNulls, List.map_map]
  refine List.map_congr_left fun entry _ => ?_
  obtain ⟨key, value⟩ := entry
  cases value <;> rfl

end Members

/-! ## What a flat style object compiles to -/

namespace Style

/-- For every class, the style object compiles to one rule with this body; to none if the body is
empty. -/
def CompilesToBody (style : Members) (body : String) : Prop :=
  ∀ className, ruleTexts className style =
    .ok (if body = "" then [] else ["." ++ className ++ " \x7b " ++ body ++ " \x7d"])

variable {style : Members} {body : String}

theorem compilesToBody_of_flat (h : style.Flat) :
    CompilesToBody style (declarationsText (style.properties.map Declaration.ofMember)) := by
  intro className
  rw [ruleTexts_of_wellFormed h.wellFormed, Block.rules_ofMembers_of_wellFormed h.wellFormed,
    h.children_eq_nil, List.flatMap_nil, List.append_nil, Rule.ofDeclarations]
  simp only [declarationsText_eq_empty_iff, List.isEmpty_iff]
  split <;> rfl

/-- A style object has at most one body. -/
theorem CompilesToBody.unique {other : String} (h : CompilesToBody style body)
    (hother : CompilesToBody style other) : body = other := by
  have htexts := Except.ok.inj ((h "").symm.trans (hother ""))
  split at htexts <;> split at htexts
  · rename_i hbody hempty
    rw [hbody, hempty]
  · exact absurd htexts (List.cons_ne_nil _ _).symm
  · exact absurd htexts (List.cons_ne_nil _ _)
  · simpa using htexts

theorem compilesToBody_iff (h : style.Flat) :
    CompilesToBody style body ↔
      body = declarationsText (style.properties.map Declaration.ofMember) := by
  refine ⟨fun hbody => hbody.unique (compilesToBody_of_flat h), ?_⟩
  rintro rfl
  exact compilesToBody_of_flat h

end Style

/-! ## Frames -/

namespace Pattern

/-- What a frame declares, as text. -/
def frameBody (declarations : Members) : String :=
  declarationsText (declarations.map Declaration.ofMember)

theorem frames_objects (declarations : List (String × Members)) :
    frames (declarations.map fun (selector, body) => (selector, .object body)) =
      .ok (declarations.map fun (selector, body) => frame selector body) := by
  induction declarations with
  | nil => rfl
  | cons first rest ih => rw [List.map_cons, frames, ih]; rfl

variable {declarations : Members}

/-- The compiler and a frame agree on what is declared exactly if nothing is null: the compiler
leaves every null out, so that it has less to say. -/
theorem compilesToBody_frameBody_iff (h : declarations.Flat) :
    Style.CompilesToBody declarations (frameBody declarations) ↔
      ∀ entry ∈ declarations, entry.2 ≠ .null := by
  rw [Style.compilesToBody_iff h, ← h.properties_eq_self_iff]
  constructor
  · intro hbody
    have hsub := declarations.properties_sublist
    have hsame := eq_of_declarationsText_eq (hsub.map Declaration.ofMember) hbody.symm
    refine hsub.eq_of_length ?_
    simpa using congrArg List.length hsame
  · intro hall
    rw [hall, frameBody]

theorem compilesToBody_spellNulls (h : declarations.Flat) :
    Style.CompilesToBody declarations.spellNulls (frameBody declarations) := by
  rw [Style.compilesToBody_iff h.spellNulls,
    h.spellNulls.properties_eq_self_iff.mpr fun _ => Members.ne_null_of_mem_spellNulls,
    Members.map_ofMember_spellNulls, frameBody]

/-- **Keyframes do not pass over nulls.** They list their frames in order. The body of a frame is
the one that its declarations compile to exactly if none of them is null; in any case they compile
to it once each null is replaced with the text `None`. -/
theorem keyframes_bodies (name : String) (declarations : List (String × Members))
    (h : ∀ entry ∈ declarations, entry.2.Flat) :
    keyframes name (.object (declarations.map fun (selector, body) => (selector, .object body))) =
        .ok ("@keyframes " ++ name ++ " \x7b "
          ++ " ".intercalate (declarations.map fun (selector, body) =>
            selector ++ " \x7b " ++ frameBody body ++ " \x7d")
          ++ " \x7d")
      ∧ ∀ entry ∈ declarations,
        (Style.CompilesToBody entry.2 (frameBody entry.2) ↔ ∀ member ∈ entry.2, member.2 ≠ .null)
          ∧ Style.CompilesToBody entry.2.spellNulls (frameBody entry.2) := by
  refine ⟨?_, fun entry hentry => ?_⟩
  · rw [keyframes, frames_objects]
    rfl
  · exact ⟨compilesToBody_frameBody_iff (h entry hentry),
      compilesToBody_spellNulls (h entry hentry)⟩

/-- Frames with and without a null declaration. -/
theorem keyframes_bodies_fade :
    Style.CompilesToBody [("opacity", .int 0), ("marginLeft", .int 10)]
        "opacity: 0; margin-left: 10px;"
      ∧ ¬ Style.CompilesToBody [("opacity", .null)] "opacity: None;" := by
  have hframes := (keyframes_bodies "fade"
    [("from", [("opacity", .int 0), ("marginLeft", .int 10)]), ("to", [("opacity", .null)])]
    (by decide)).2
  obtain ⟨⟨hfrom, -⟩, hrest⟩ := List.forall_mem_cons.mp hframes
  obtain ⟨hto, -⟩ := hrest _ List.mem_cons_self
  exact ⟨hfrom.mpr (by simp), fun h => hto.mp h _ List.mem_cons_self rfl⟩

end Pattern

end Cascade
