import Cascade.Proofs.Component.Document

/-!
# Ways to a component

There are three ways to compile a component: from a document, from its parts, and by name with the
container that usually goes with it. They look for the same faults at different times. A document
is refused for a style that is no object before anything is compiled; from its parts such a
component is made all the same, and the style is found only behind those that stand before it. So
the ways may tell of different faults, but they refuse the same components, and give the same
sheets for the rest (`ofDocument_ok_iff_ofParts_ok` and `compileDocument_ok_iff_compileParts_ok`).
-/

namespace Cascade

/-- The document gives these parts. Styles that are missing are null, and a missing layer is that
of components. -/
structure Members.Gives (document : Members) (styles layer : Value)
    (container : Option Container) : Prop where
  styles : (document.get? "styles").getD .null = styles
  layer : (document.get? "layer").getD (.str Layer.components.name) = layer
  container : Container.Given (document.get? "container") container

namespace Component

theorem ofParts_ok_iff {styles layer : Value} {container : Option Container} {c : Component} :
    ofParts styles layer container = .ok c ↔
      styles = .object c.styles ∧ layer = .str c.layer.name ∧ container = c.container := by
  obtain ⟨members, found, around⟩ := c
  rw [← Layer.ofValue_ok_iff]
  simp only [ofParts, bind, Except.bind, pure, Except.pure]
  cases Layer.ofValue layer with
  | error fault => simp
  | ok read =>
    cases styles with
    | object given => simp only [Except.ok.injEq, Component.mk.injEq, Value.object.injEq]
    | _ => simp

variable {document : Members} {styles layer : Value} {container : Option Container}
  {settings : Settings} {compiled : Compiled}

/-- A document gives the component that its parts make, if all styles are objects. -/
theorem ofDocument_ok_iff_ofParts_ok (h : document.Gives styles layer container)
    (htype : ∀ c ∈ container, c.type = .null ∨ ∃ name ∈ containerTypes, c.type = .str name)
    {c : Component} :
    ofDocument (.object document) = .ok c ↔
      ofParts styles layer container = .ok c
        ∧ ∀ entry ∈ c.styles, ∃ style : Members, entry.2 = .object style := by
  have hstyles :
      document.get? "styles" = some (.object c.styles) ↔ styles = .object c.styles := by
    rw [← h.styles]
    cases document.get? "styles" <;> simp
  have hcontainer : Container.ofDocument ((document.get? "container").getD .null) =
      .ok c.container ↔ container = c.container := by
    constructor
    · intro hread
      exact h.container.unique (Container.ofDocument_ok_iff.mp hread).1
    · intro heq
      exact Container.ofDocument_ok_iff.mpr ⟨heq ▸ h.container, heq ▸ htype⟩
  rw [ofDocument_ok_iff, ofParts_ok_iff, stylesOfDocument_ok_iff, Layer.ofValue_ok_iff, hstyles,
    hcontainer, h.layer]
  tauto

/-- What is made of parts and has a style that is no object does not compile, so that it does not
matter that a document with such a style is not even read. -/
theorem compileDocument_ok_iff_compileParts_ok (h : document.Gives styles layer container)
    (htype : ∀ c ∈ container, c.type = .null ∨ ∃ name ∈ containerTypes, c.type = .str name) :
    (compileDocument (.object document) settings).outcome = .ok compiled ↔
      (compileParts styles layer container settings).outcome = .ok compiled := by
  rw [compileDocument_ok_iff, compileParts, Report.outcome_bind_ofExcept_ok_iff]
  refine exists_congr fun c => ?_
  rw [ofDocument_ok_iff_ofParts_ok h htype]
  constructor
  · rintro ⟨⟨hmade, -⟩, hcompiled⟩
    exact ⟨hmade, hcompiled⟩
  · rintro ⟨hmade, hcompiled⟩
    have hwellFormed := exists_compile_ok_iff_wellFormed.mp ⟨compiled, hcompiled⟩
    exact ⟨⟨hmade, fun entry hentry => (hwellFormed entry hentry).imp fun _ hstyle => hstyle.1⟩,
      hcompiled⟩

theorem compileNamed_eq_compileParts (hlayer : layer.isTruthy = true) (name : Value)
    (inContainer : Bool) :
    compileNamed settings name styles inContainer layer =
      compileParts styles layer (if inContainer then some ⟨name, .str "inline-size"⟩ else none)
        settings := by
  rw [compileNamed, named, if_pos hlayer, compileParts]

/-- **The ways to a component agree.** A document compiles exactly if the parts that it gives
compile, and to the same class names and the same sheet, provided the container's type is null or
one of the four. A component that is compiled by name, for a layer that is given, has the outcome
of the document with the same styles and layer, and with a container of that name if it is to have
one. -/
theorem compile_outcomes_agree :
    (∀ (document : Members) (styles layer : Value) (container : Option Container)
        (settings : Settings), document.Gives styles layer container →
      (∀ c ∈ container, c.type = .null ∨ ∃ name ∈ containerTypes, c.type = .str name) →
      (compileDocument (.object document) settings).outcome.toOption =
        (compileParts styles layer container settings).outcome.toOption)
    ∧ ∀ (document : Members) (settings : Settings) (name styles layer : Value)
        (inContainer : Bool), layer.isTruthy = true →
      document.Gives styles layer
        (if inContainer then some ⟨name, .str "inline-size"⟩ else none) →
      (compileNamed settings name styles inContainer layer).outcome.toOption =
        (compileDocument (.object document) settings).outcome.toOption := by
  constructor
  · intro document styles layer container settings h htype
    exact Report.toOption_outcome_congr fun compiled =>
      compileDocument_ok_iff_compileParts_ok h htype
  · intro document settings name styles layer inContainer hlayer h
    have htype :
        ∀ c ∈ if inContainer then some (Container.mk name (.str "inline-size")) else none,
        c.type = .null ∨ ∃ name ∈ containerTypes, c.type = .str name := by
      cases inContainer with
      | false => exact nofun
      | true => exact fun c hc => Option.some.inj hc ▸ .inr ⟨"inline-size", by decide, rfl⟩
    rw [compileNamed_eq_compileParts hlayer]
    exact Report.toOption_outcome_congr fun compiled =>
      (compileDocument_ok_iff_compileParts_ok h htype).symm

/-- A document with these styles, for the layer of utilities and in a container. -/
def utilityDocument (styles : Members) : Members :=
  [("styles", .object styles), ("layer", .str "utilities"),
   ("container", .object [("name", .str "tools"), ("type", .str "inline-size")])]

/-- Faults in two styles: the document is refused for the second, which is no object, before the
first is compiled. -/
def twiceFaulty : Members :=
  [("card", .object [("&:hover", .int 1)]), ("badge", .null)]

theorem compile_outcomes_agree_tools :
    let container : Container := ⟨.str "tools", .str "inline-size"⟩
    let styles : Members := [("bar", .object [("display", .str "flex")])]
    (∃ compiled,
      (compileDocument (.object (utilityDocument styles)) {}).outcome.toOption = some compiled
      ∧ (compileParts (.object styles) (.str "utilities") (some container) {}).outcome.toOption =
          some compiled
      ∧ (compileNamed {} (.str "tools") (.object styles) true
          (.str "utilities")).outcome.toOption = some compiled)
    ∧ (compileDocument (.object (utilityDocument twiceFaulty)) {}).outcome =
        .error ⟨.styleNotObject "badge", ["styles"]⟩
    ∧ (compileParts (.object twiceFaulty) (.str "utilities") (some container) {}).outcome =
        .error ⟨.nestedNotObject "&:hover" .int, ["card"]⟩
    ∧ (compileNamed {} (.str "tools") (.object twiceFaulty) true
        (.str "utilities")).outcome.toOption = none := by
  intro container styles
  obtain ⟨hparts, hnamed⟩ := compile_outcomes_agree
  have hgives : ∀ styles : Members, (utilityDocument styles).Gives (.object styles)
      (.str "utilities") (some container) := fun _ => ⟨rfl, rfl, .object _⟩
  have htype :
      ∀ c ∈ some container, c.type = .null ∨ ∃ name ∈ containerTypes, c.type = .str name :=
    fun c hc => Option.some.inj hc ▸ .inr ⟨"inline-size", by decide, rfl⟩
  have hdocument : (compileDocument (.object (utilityDocument styles)) {}).outcome.toOption =
      some _ := rfl
  refine ⟨⟨_, hdocument, ?_, ?_⟩, rfl, rfl, ?_⟩
  · rw [← hparts _ _ _ _ {} (hgives styles) htype, hdocument]
  · rw [hnamed _ {} (.str "tools") _ _ true rfl (hgives styles), hdocument]
  · rw [hnamed _ {} (.str "tools") _ _ true rfl (hgives twiceFaulty)]
    rfl

end Component

end Cascade
