import Cascade.Proofs.Component.Document

/-!
# The requirements of a document

A document must meet six requirements to describe a component. They are checked in a fixed order,
and a document that fails several of them is blamed for the first (`Requirement.FirstUnmet`). Each
requirement is stated here for the document as a whole, with no check of it and in no order; what
has no members or no styles meets the requirements on them.

A component that was read has only objects for styles. So compiling it never finds fault with a
style as such: whatever is refused then is an entry inside a style tree, and its path begins with
the key of that style.
-/

namespace Cascade

namespace Value

/-- The member with this key; only objects have members. -/
def member? (value : Value) (key : String) : Option Value :=
  value.members?.bind (Members.get? · key)

@[simp] theorem member?_object (members : Members) (key : String) :
    (object members).member? key = members.get? key := rfl

/-- The key of the first style that is no object. -/
def firstStrayStyle? (document : Value) : Option String :=
  ((document.member? "styles").bind members?).bind fun styles =>
    (styles.find? fun entry => entry.2.members?.isNone).map Prod.fst

end Value

/-- What a document must meet to describe a component. -/
inductive Requirement where
  /-- It is an object. -/
  | object
  /-- Its styles are an object. -/
  | styles
  /-- Each of its styles is an object. -/
  | eachStyle
  /-- Its container is missing, null or an object. -/
  | container
  /-- The type of its container is missing, null or one of the four. -/
  | containerType
  /-- Its layer is missing or one of the five. -/
  | layer
  deriving DecidableEq, Repr

namespace Requirement

/-- All requirements, in the order in which they are checked. -/
def all : List Requirement :=
  [object, styles, eachStyle, container, containerType, layer]

theorem mem_all (r : Requirement) : r ∈ all := by
  cases r <;> decide

/-- The document meets a requirement. -/
def Met (document : Value) : Requirement → Prop
  | object => ∃ members, document = .object members
  | styles => ∃ styles, document.member? "styles" = some (.object styles)
  | eachStyle => ∀ styles, document.member? "styles" = some (.object styles) →
      ∀ entry ∈ styles, ∃ style, entry.2 = .object style
  | container => ∀ found, document.member? "container" = some found →
      found = .null ∨ ∃ container, found = .object container
  | containerType => ∀ (container : Members) (type : Value),
      document.member? "container" = some (.object container) →
      container.get? "type" = some type → type = .null ∨ ∃ name ∈ containerTypes, type = .str name
  | layer => ∀ found, document.member? "layer" = some found →
      ∃ layer : Layer, found = .str layer.name

/-- The key that is told if the document does not meet a requirement. -/
def key? (document : Value) : Requirement → Option String
  | object => none
  | styles => some "styles"
  | eachStyle => document.firstStrayStyle?
  | container => some "container"
  | containerType => some "type"
  | layer => some "layer"

/-- The path that is told if the document does not meet a requirement. -/
def path : Requirement → List String
  | eachStyle => ["styles"]
  | containerType => ["container"]
  | _ => []

/-- The document does not meet this requirement, and meets all that are checked before it. -/
def FirstUnmet (document : Value) (r : Requirement) : Prop :=
  ∃ before after, all = before ++ r :: after
    ∧ (∀ earlier ∈ before, earlier.Met document) ∧ ¬ r.Met document

/-- The fault that is told if this is the first requirement that the document does not meet. -/
def Blames (document : Value) (r : Requirement) (fault : Fault) : Prop :=
  r.FirstUnmet document ∧ fault.key? = r.key? document ∧ fault.path = r.path

end Requirement

/-- The component has the parts that the document gives it. -/
structure Component.Carries (document : Value) (c : Component) : Prop where
  styles : document.member? "styles" = some (.object c.styles)
  layer : (document.member? "layer" = none ∧ c.layer = .components)
    ∨ document.member? "layer" = some (.str c.layer.name)
  container : Container.Given (document.member? "container") c.container

/-! ## Each check -/

namespace Layer

theorem ofValue_error {v : Value} {fault : Fault} (h : ofValue v = .error fault) :
    fault = ⟨.unknownLayer v, []⟩ := by
  cases v with
  | str s =>
    rw [ofValue] at h
    split at h
    · cases h
    · exact (Except.error.inj h).symm
  | _ => exact (Except.error.inj h).symm

end Layer

namespace Container

/-- What a container is refused for. -/
theorem ofDocument_error {v : Value} {fault : Fault} (h : ofDocument v = .error fault) :
    (fault = ⟨.containerNotObject, []⟩ ∧ v ≠ .null ∧ ∀ members, v ≠ .object members)
    ∨ ∃ members : Members, v = .object members
      ∧ fault = ⟨.unknownContainerType ((members.get? "type").getD .null), ["container"]⟩
      ∧ isType ((members.get? "type").getD .null) = false := by
  cases v with
  | null => cases h
  | object members =>
    simp only [ofDocument] at h
    split at h
    · cases h
    · rename_i htype
      exact .inr ⟨members, rfl, (Except.error.inj h).symm, Bool.eq_false_iff.mpr htype⟩
  | _ => exact .inl ⟨(Except.error.inj h).symm, by simp, by simp⟩

end Container

namespace Component

theorem firstNonObject?_eq_find? (styles : Members) :
    firstNonObject? styles =
      (styles.find? fun entry => entry.2.members?.isNone).map Prod.fst := by
  induction styles with
  | nil => rfl
  | cons entry rest ih =>
    obtain ⟨key, value⟩ := entry
    rw [firstNonObject?, ih, List.find?_cons]
    cases value <;> rfl

/-- What the styles of a document are refused for. -/
theorem stylesOfDocument_error {document : Members} {fault : Fault}
    (h : stylesOfDocument document = .error fault) :
    (fault = ⟨.stylesMemberNotObject, []⟩
      ∧ ∀ styles, document.get? "styles" ≠ some (.object styles))
    ∨ ∃ styles key, document.get? "styles" = some (.object styles)
      ∧ firstNonObject? styles = some key ∧ fault = ⟨.styleNotObject key, ["styles"]⟩ := by
  rw [stylesOfDocument] at h
  split at h
  · rename_i styles hstyles
    split at h
    · cases h
    · rename_i key hkey
      exact .inr ⟨styles, key, hstyles, hkey, (Except.error.inj h).symm⟩
  · rename_i hnone
    exact .inl ⟨(Except.error.inj h).symm, hnone⟩

/-- A document is refused by the first of its checks that fails. -/
theorem ofDocument_error {document : Members} {fault : Fault}
    (h : ofDocument (.object document) = .error fault) :
    stylesOfDocument document = .error fault
    ∨ (∃ styles, stylesOfDocument document = .ok styles)
      ∧ (Container.ofDocument ((document.get? "container").getD .null) = .error fault
        ∨ (∃ container,
            Container.ofDocument ((document.get? "container").getD .null) = .ok container)
          ∧ Layer.ofValue ((document.get? "layer").getD (.str Layer.components.name)) =
            .error fault) := by
  simp only [ofDocument, bind, Except.bind, pure, Except.pure] at h
  cases hstyles : stylesOfDocument document with
  | error found =>
    rw [hstyles] at h
    exact .inl (congrArg _ (Except.error.inj h))
  | ok styles =>
    refine .inr ⟨⟨styles, rfl⟩, ?_⟩
    rw [hstyles] at h
    cases hcontainer : Container.ofDocument ((document.get? "container").getD .null) with
    | error found =>
      simp only [hcontainer] at h
      exact .inl (congrArg _ (Except.error.inj h))
    | ok container =>
      refine .inr ⟨⟨container, rfl⟩, ?_⟩
      cases hlayer :
        Layer.ofValue ((document.get? "layer").getD (.str Layer.components.name)) with
      | error found =>
        simp only [hcontainer, hlayer] at h
        exact congrArg _ (Except.error.inj h)
      | ok layer => simp only [hcontainer, hlayer, reduceCtorEq] at h

end Component

/-! ## The first requirement that is not met -/

namespace Requirement

variable {document : Members} {fault : Fault}

theorem met_of_stylesOfDocument {styles : Members}
    (h : Component.stylesOfDocument document = .ok styles) :
    ∀ r ∈ [object, .styles, eachStyle], r.Met (.object document) := by
  obtain ⟨hfound, hobjects⟩ := Component.stylesOfDocument_ok_iff.mp h
  have heach : eachStyle.Met (.object document) := by
    intro other hother
    obtain rfl := Value.object.inj (Option.some.inj (hfound.symm.trans hother))
    exact hobjects
  exact List.forall_mem_cons.mpr ⟨⟨document, rfl⟩,
    List.forall_mem_cons.mpr ⟨⟨styles, hfound⟩, List.forall_mem_singleton.mpr heach⟩⟩

theorem met_of_container_ofDocument {container : Option Container}
    (h : Container.ofDocument ((document.get? "container").getD .null) = .ok container) :
    ∀ r ∈ [Requirement.container, containerType], r.Met (.object document) := by
  have hfound := Container.exists_ofDocument_ok_iff.mp ⟨container, h⟩
  refine List.forall_mem_cons.mpr ⟨fun v hv => ?_, List.forall_mem_singleton.mpr ?_⟩
  · exact (hfound v hv).imp_right fun ⟨members, hmembers, _⟩ => ⟨members, hmembers⟩
  · intro members type hmembers htype
    obtain hnull | ⟨found, hobject, hfine⟩ := hfound _ hmembers
    · cases hnull
    · obtain rfl := Value.object.inj hobject
      exact hfine type htype

theorem met_of_ofDocument {document : Value} {c : Component}
    (h : Component.ofDocument document = .ok c) (r : Requirement) : r.Met document := by
  cases document with
  | object members =>
    obtain ⟨hstyles, hcontainer, hlayer⟩ := Component.ofDocument_ok_iff.mp h
    have hfirst := met_of_stylesOfDocument hstyles
    have hsecond := met_of_container_ofDocument hcontainer
    cases r with
    | object => exact hfirst _ (by decide)
    | styles => exact hfirst _ (by decide)
    | eachStyle => exact hfirst _ (by decide)
    | container => exact hsecond _ (by decide)
    | containerType => exact hsecond _ (by decide)
    | layer => exact Layer.exists_ofValue_ok_iff.mp ⟨c.layer, hlayer⟩
  | _ => cases h

theorem blames_of_stylesOfDocument (h : Component.stylesOfDocument document = .error fault) :
    ∃ r : Requirement, r.Blames (.object document) fault := by
  rcases Component.stylesOfDocument_error h with
    ⟨rfl, hnone⟩ | ⟨styles, key, hfound, hkey, rfl⟩
  · refine ⟨.styles, ⟨[object], [eachStyle, container, containerType, layer], rfl, ?_, ?_⟩,
      rfl, rfl⟩
    · exact List.forall_mem_singleton.mpr ⟨document, rfl⟩
    · exact fun ⟨found, hfound⟩ => hnone found hfound
  · refine ⟨eachStyle, ⟨[object, .styles], [container, containerType, layer], rfl, ?_, ?_⟩,
      ?_, rfl⟩
    · exact List.forall_mem_cons.mpr ⟨⟨document, rfl⟩,
        List.forall_mem_singleton.mpr ⟨styles, hfound⟩⟩
    · intro heach
      rw [Component.firstNonObject?_eq_none_iff.mpr (heach styles hfound)] at hkey
      cases hkey
    · rw [Component.firstNonObject?_eq_find?] at hkey
      have hstyles : ((Value.object document).member? "styles").bind Value.members? =
          some styles := by rw [Value.member?_object, hfound]; rfl
      rw [key?, Value.firstStrayStyle?, hstyles, Option.bind_some, hkey]
      rfl

theorem blames_of_container_ofDocument {styles : Members}
    (hstyles : Component.stylesOfDocument document = .ok styles)
    (h : Container.ofDocument ((document.get? "container").getD .null) = .error fault) :
    ∃ r : Requirement, r.Blames (.object document) fault := by
  have hbefore := met_of_stylesOfDocument hstyles
  cases hfound : document.get? "container" with
  | none =>
    rw [hfound] at h
    cases h
  | some v =>
    rw [hfound] at h
    rcases Container.ofDocument_error h with ⟨rfl, hnull, hobject⟩ | ⟨members, hv, rfl, htype⟩
    · refine ⟨container, ⟨_, [containerType, layer], rfl, hbefore, fun hmet => ?_⟩, rfl, rfl⟩
      obtain heq | ⟨members, heq⟩ := hmet v hfound
      · exact hnull heq
      · exact hobject members heq
    · obtain rfl : v = .object members := hv
      refine ⟨containerType, ⟨[object, .styles, eachStyle, container], [layer], rfl, ?_, ?_⟩,
        rfl, rfl⟩
      · have hcontainer : container.Met (.object document) := fun other hother =>
          .inr ⟨members, Option.some.inj (hother.symm.trans hfound)⟩
        exact List.forall_mem_append.mpr ⟨hbefore, List.forall_mem_singleton.mpr hcontainer⟩
      · intro hmet
        refine absurd (Container.isType_iff.mpr ?_) (Bool.eq_false_iff.mp htype)
        cases hgiven : Members.get? members "type" with
        | none => exact .inl rfl
        | some type => exact hmet members type hfound hgiven

theorem blames_of_layer_ofValue {styles : Members} {container : Option Container}
    (hstyles : Component.stylesOfDocument document = .ok styles)
    (hcontainer : Container.ofDocument ((document.get? "container").getD .null) = .ok container)
    (h : Layer.ofValue ((document.get? "layer").getD (.str Layer.components.name)) =
      .error fault) :
    ∃ r : Requirement, r.Blames (.object document) fault := by
  obtain rfl := Layer.ofValue_error h
  refine ⟨layer, ⟨_, [], rfl, List.forall_mem_append.mpr ⟨met_of_stylesOfDocument hstyles,
    met_of_container_ofDocument hcontainer⟩, fun hmet => ?_⟩, rfl, rfl⟩
  obtain ⟨found, hfound⟩ := Layer.exists_ofValue_ok_iff.mpr hmet
  cases h.symm.trans hfound

/-- A document that is refused is blamed for the first requirement that it does not meet. -/
theorem blames_of_ofDocument {document : Value}
    (h : Component.ofDocument document = .error fault) :
    ∃ r : Requirement, r.Blames document fault := by
  cases document with
  | object members =>
    obtain hstyles | ⟨⟨styles, hstyles⟩, hcontainer | ⟨⟨container, hcontainer⟩, hlayer⟩⟩ :=
      Component.ofDocument_error h
    · exact blames_of_stylesOfDocument hstyles
    · exact blames_of_container_ofDocument hstyles hcontainer
    · exact blames_of_layer_ofValue hstyles hcontainer hlayer
  | _ =>
    obtain rfl := Except.error.inj h
    exact ⟨object, ⟨[], _, rfl, List.forall_mem_nil _, nofun⟩, rfl, rfl⟩

end Requirement

/-! ## What was read -/

namespace Component

theorem carries_of_ofDocument {document : Value} {c : Component}
    (h : ofDocument document = .ok c) :
    c.Carries document := by
  cases document with
  | object members =>
    obtain ⟨hstyles, hcontainer, hlayer⟩ := ofDocument_ok_iff.mp h
    refine ⟨(stylesOfDocument_ok_iff.mp hstyles).1, ?_,
      (Container.ofDocument_ok_iff.mp hcontainer).1⟩
    rw [Layer.ofValue_ok_iff] at hlayer
    rw [Value.member?_object]
    cases hfound : Members.get? members "layer" with
    | none =>
      rw [hfound, Option.getD_none, ← Layer.ofValue_ok_iff] at hlayer
      exact .inl ⟨rfl, (Except.ok.inj hlayer).symm⟩
    | some v =>
      rw [hfound, Option.getD_some] at hlayer
      exact .inr (congrArg some hlayer)
  | _ => cases h

/-- Where all styles are objects, a component is refused for what is inside of one of them. -/
theorem compile_error_inside {c : Component} {settings : Settings} {fault : Fault}
    (hobjects : ∀ entry ∈ c.styles, ∃ style, entry.2 = .object style)
    (h : (c.compile settings).outcome = .error fault) :
    (∀ key, fault.cause ≠ .styleNotObject key)
      ∧ ∃ key ∈ c.styles.map Prod.fst, fault.path.head? = some key := by
  obtain ⟨before, entry, after, hstyles, -, hrefused⟩ := compile_error_iff.mp h
  have hmem : entry ∈ c.styles := hstyles ▸ List.mem_append_right before List.mem_cons_self
  cases hrefused with
  | notObject hobject =>
    obtain ⟨style, hstyle⟩ := hobjects _ hmem
    exact absurd hstyle (hobject style)
  | @malformed key members i cause path herror =>
    refine ⟨fun stray hcause => ?_, key, List.mem_map_of_mem hmem, rfl⟩
    obtain ⟨_, _, _, hfirst, heq⟩ := Style.compile_outcome_error_iff_firstMalformed.mp herror
    obtain ⟨_, _, _, _, _, -, -, -, -, hhead⟩ := hfirst
    obtain ⟨rfl, -⟩ := Fault.mk.injEq .. |>.mp heq
    cases hcause
    cases Members.mem_entryMalformations_iff.mp (List.mem_of_mem_head? hhead)

/-- **What a document is refused for, and what is left to refuse.** A document is refused exactly
if it does not meet one of the six requirements, and the key and the path that are told are those
of the first one that it does not meet. If it is read, the component has exactly the styles, the
layer and the container of the document; and if that component does not compile, this is on
account of something inside one of its styles: no style as such is found fault with any more, and
the path begins with the key of a style. -/
theorem ofDocument_blames_first (document : Value) :
    ((∃ fault, ofDocument document = .error fault) ↔ ∃ r ∈ Requirement.all, ¬ r.Met document)
    ∧ (∀ fault, ofDocument document = .error fault → ∃ r : Requirement, r.Blames document fault)
    ∧ ∀ c, ofDocument document = .ok c → c.Carries document
      ∧ ∀ settings fault, (c.compile settings).outcome = .error fault →
        (∀ key, fault.cause ≠ .styleNotObject key)
          ∧ ∃ key ∈ c.styles.map Prod.fst, fault.path.head? = some key := by
  refine ⟨⟨?_, ?_⟩, fun fault => Requirement.blames_of_ofDocument, fun c h => ?_⟩
  · rintro ⟨fault, h⟩
    obtain ⟨r, ⟨-, -, -, -, hunmet⟩, -⟩ := Requirement.blames_of_ofDocument h
    exact ⟨r, r.mem_all, hunmet⟩
  · rintro ⟨r, -, hunmet⟩
    cases h : ofDocument document with
    | error fault => exact ⟨fault, rfl⟩
    | ok c => exact absurd (Requirement.met_of_ofDocument h r) hunmet
  · have hcarries := carries_of_ofDocument h
    have hobjects := Requirement.met_of_ofDocument h .eachStyle c.styles hcarries.styles
    exact ⟨hcarries, fun _ _ => compile_error_inside hobjects⟩

/-- A document with faults in two styles, in its container and in its layer. -/
def muddled : Value :=
  .object
    [("layer", .null), ("container", .object [("type", .str "grid")]),
     ("styles", .object [("card", .object []), ("badge", .null), ("menu", .int 1)])]

/-- A document that is read, with a fault inside a style. -/
def unfinished : Value :=
  .object [("styles", .object [("card", .object [("&:hover", .int 1)])]), ("container", .null)]

theorem ofDocument_blames_first_muddled :
    (∃ fault, ofDocument muddled = .error fault
      ∧ (∃ r : Requirement, r.Blames muddled fault)
      ∧ fault.key? = some "badge" ∧ fault.path = ["styles"])
    ∧ ∃ c fault, ofDocument unfinished = .ok c ∧ c.Carries unfinished
      ∧ (c.compile {}).outcome = .error fault
      ∧ ∃ key ∈ c.styles.map Prod.fst, fault.path.head? = some key := by
  obtain ⟨-, hblames, -⟩ := ofDocument_blames_first muddled
  obtain ⟨-, -, hread⟩ := ofDocument_blames_first unfinished
  have hmuddled : ofDocument muddled = .error ⟨.styleNotObject "badge", ["styles"]⟩ := rfl
  have hunfinished : ofDocument unfinished = .ok _ := rfl
  obtain ⟨hcarries, hinside⟩ := hread _ hunfinished
  exact ⟨⟨_, hmuddled, hblames _ hmuddled, rfl, rfl⟩,
    _, _, hunfinished, hcarries, rfl, (hinside {} _ rfl).2⟩

end Component

end Cascade
