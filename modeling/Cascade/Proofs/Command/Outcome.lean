import Cascade.Proofs.Command.File
import Cascade.Proofs.Command.Printed

/-!
# The outcome of compiling a file

What a command line that compiles a file comes to is decided by the bytes of the file. They may be
no text, or a text with a whole number that is too long; they may be a text that is no JSON; they
may hold a document that describes no component; and they may hold one that does.
`compile_decided` tells these ends apart by what the document must be (`Value.IsComponent`), with
the layer of the command line in it, and says what is printed at each. Only a success prints to
the standard output.
-/

namespace Cascade.Command

variable {data : ByteArray}

theorem compileBytes_of_garbled {problem : Json.Problem} {position : Nat}
    (h : Garbled data problem position) (verbose : Bool) (file : String) (layer : Option Layer)
    (asJson : Bool) :
    ∃ message, compileBytes verbose file layer asJson data =
      .finished 1 "" ("Invalid JSON in " ++ message) := by
  obtain ⟨content, hcontent, hread⟩ := h
  simp only [compileBytes, hcontent, hread, String.append_assoc]
  exact ⟨_, by rw [printed_append (by decide)]⟩

/-- Whatever is not compiled ends with code 1 and prints nothing to the standard output. -/
theorem compiles_or_fails (data : ByteArray) (verbose : Bool) (file : String)
    (layer : Option Layer) (asJson : Bool) :
    (∃ document compiled, Holds data document
        ∧ (Component.compileDocument (withLayer layer document)).outcome = .ok compiled)
      ∨ ((compileBytes verbose file layer asJson data).code = 1
        ∧ (compileBytes verbose file layer asJson data).output = "") := by
  cases hcontent : String.fromUTF8? data with
  | none =>
    right
    simp only [compileBytes, hcontent]
    exact ⟨rfl, rfl⟩
  | some content =>
    cases hread : Json.read (Text.unifyNewlines content.toList) with
    | error fault =>
      right
      cases fault <;> simp only [compileBytes, hcontent, hread] <;> exact ⟨rfl, rfl⟩
    | ok document =>
      have hdocument : Holds data document := ⟨content, hcontent, hread⟩
      cases hcompiled : (Component.compileDocument (withLayer layer document)).outcome with
      | ok compiled => exact .inl ⟨document, compiled, hdocument, hcompiled⟩
      | error fault =>
        right
        simp only [compileBytes_of_holds hdocument, printCompiled, hcompiled]
        exact ⟨rfl, rfl⟩

/-- **The file decides the outcome of compiling it.** Without the log, a command line that
compiles a file ends with code 0 exactly if the file holds a document that, with the layer of the
command line, describes a component. It then prints the component: its JSON, or its style sheet
without terminal control sequences, which is the style sheet itself exactly if none stands in it.
Else it ends with code 1 and prints nothing but a message. -/
theorem compile_decided {words : List String} {look : String → FileContent} {file : String}
    {layer : Option Layer} {asJson : Bool} {data : ByteArray}
    (hwords : Invocation.parse words = some ⟨false, .compile file layer asJson⟩)
    (hfile : look file = .bytes data) :
    let outcome := runCommandLine words look
    (outcome.code = 0 ↔
      ∃ document, Holds data document ∧ (withLayer layer document).IsComponent)
    ∧ (∀ document compiled, Holds data document →
        (Component.compileDocument (withLayer layer document)).outcome = .ok compiled →
        outcome.errors = ""
          ∧ outcome.output = (if asJson then compiled.json ++ "\n" else printed compiled.css)
          ∧ (outcome.output = (if asJson then compiled.json else compiled.css) ++ "\n" ↔
              asJson = true ∨ Text.ControlFree compiled.css.toList))
    ∧ (outcome.code ≠ 0 → outcome.code = 1 ∧ outcome.output = "")
    ∧ (∀ problem position, Garbled data problem position →
        outcome.code = 1 ∧ ∃ message, outcome.errors = "Invalid JSON in " ++ message)
    ∧ ∀ document fault, Holds data document →
        (Component.compileDocument (withLayer layer document)).outcome = .error fault →
        outcome.code = 1 ∧ ∃ message, outcome.errors = "Config error: " ++ message := by
  have hrun : runCommandLine words look = compileBytes false file layer asJson data := by
    simp only [runCommandLine, hwords, Invocation.run, hfile]
  rw [hrun]
  have hok {document : Value} {compiled : Compiled} (h : Holds data document)
      (hcompiled :
        (Component.compileDocument (withLayer layer document)).outcome = .ok compiled) :
      compileBytes false file layer asJson data =
        .finished 0 (if asJson then compiled.json ++ "\n" else printed compiled.css) "" := by
    rw [compileBytes_of_holds h, printCompiled_of_ok hcompiled]
  have herror {document : Value} {fault : Fault} (h : Holds data document)
      (hfault : (Component.compileDocument (withLayer layer document)).outcome = .error fault) :
      compileBytes false file layer asJson data =
        .finished 1 "" ("Config error: " ++ printed fault.message) := by
    rw [compileBytes_of_holds h, printCompiled_of_error hfault]
  refine ⟨⟨?_, ?_⟩, ?_, ?_, ?_, ?_⟩
  · intro hcode
    rcases compiles_or_fails data false file layer asJson with
      ⟨document, compiled, hdocument, hcompiled⟩ | ⟨hone, -⟩
    · exact ⟨document, hdocument,
        Component.exists_compileDocument_ok_iff.mp ⟨compiled, hcompiled⟩⟩
    · exact absurd (hone.symm.trans hcode) (by decide)
  · rintro ⟨document, hdocument, hcomponent⟩
    obtain ⟨compiled, hcompiled⟩ := Component.exists_compileDocument_ok_iff.mpr hcomponent
    rw [hok hdocument hcompiled, Outcome.code]
  · intro document compiled hdocument hcompiled
    rw [hok hdocument hcompiled]
    refine ⟨rfl, rfl, ?_⟩
    cases asJson with
    | true => exact iff_of_true rfl (.inl rfl)
    | false => exact printed_eq_iff.trans (by simp)
  · intro hcode
    rcases compiles_or_fails data false file layer asJson with
      ⟨document, compiled, hdocument, hcompiled⟩ | hfails
    · rw [hok hdocument hcompiled] at hcode
      exact absurd rfl hcode
    · exact hfails
  · intro problem position hgarbled
    obtain ⟨message, hmessage⟩ := compileBytes_of_garbled hgarbled false file layer asJson
    rw [hmessage]
    exact ⟨rfl, message, rfl⟩
  · intro document fault hdocument hfault
    rw [herror hdocument hfault]
    exact ⟨rfl, _, rfl⟩

/-- A file with an unknown layer, which the command line replaces. -/
def misplacedFile : String :=
  "\x7b\"layer\": \"nowhere\",\r\n \"styles\": \x7b\"card\": \x7b\"padding\": 8\x7d\x7d\x7d"

theorem compile_decided_misplaced :
    let look := fun _ : String => FileContent.bytes misplacedFile.toUTF8
    let words := ["compile", "card.json", "--layer", "overrides"]
    Invocation.parse words = some ⟨false, .compile "card.json" (some .overrides) false⟩
      ∧ look "card.json" = .bytes misplacedFile.toUTF8
      ∧ (runCommandLine words look).code = 0
      ∧ (runCommandLine words look).output =
        "@layer overrides \x7b .card-1k7zfk \x7b padding: 8px; \x7d \x7d\n"
      ∧ ∃ message, (runCommandLine ["compile", "card.json"] look).errors =
        "Config error: " ++ message := by
  intro look words
  have hwords : Invocation.parse words =
      some ⟨false, .compile "card.json" (some .overrides) false⟩ := by decide
  have hplain : Invocation.parse ["compile", "card.json"] =
      some ⟨false, .compile "card.json" none false⟩ := by decide
  have hlook : look "card.json" = .bytes misplacedFile.toUTF8 := rfl
  let styles : Value := .object [("card", .object [("padding", .int 8)])]
  have hdocument : Holds misplacedFile.toUTF8
      (.object [("layer", .str "nowhere"), ("styles", styles)]) :=
    ⟨misplacedFile, fromUTF8?_toUTF8 misplacedFile, by rfl⟩
  have hcompiled : (Component.compileDocument (withLayer (some .overrides)
      (.object [("layer", .str "nowhere"), ("styles", styles)]))).outcome =
        .ok ⟨[("card", "card-1k7zfk")],
          "@layer overrides \x7b .card-1k7zfk \x7b padding: 8px; \x7d \x7d"⟩ :=
    Report.outcome_eq_ok_of_toOption (by decide +kernel)
  obtain ⟨hcode, hsuccess, -⟩ := compile_decided hwords hlook
  obtain ⟨-, -, hprinted⟩ := hsuccess _ _ hdocument hcompiled
  obtain ⟨-, -, -, -, hrefused⟩ := compile_decided hplain hlook
  refine ⟨hwords, hlook, hcode.mpr ⟨_, hdocument, ?_⟩, hprinted.mpr (.inr ?_), ?_⟩
  · exact Component.exists_compileDocument_ok_iff.mp ⟨_, hcompiled⟩
  · rw [← Text.dropControlSequences_eq_self_iff]
    exact Text.dropControlSequences_of_not_mem (by decide)
  · exact (hrefused _ ⟨.unknownLayer (.str "nowhere"), []⟩ hdocument (by rfl)).2

/-- A file with a style that sets a terminal's colour. -/
def colouredFile : String :=
  "\x7b\"styles\": \x7b\"a\": \x7b\"content\": \"\\u001b[31mred\\u001b[0m\"\x7d\x7d\x7d"

/-- The style sheet is not always printed as it is. -/
theorem css_not_printed_verbatim :
    let look := fun _ : String => FileContent.bytes colouredFile.toUTF8
    let words := ["compile", "a.json"]
    Invocation.parse words = some ⟨false, .compile "a.json" none false⟩
      ∧ ∃ document compiled, Holds colouredFile.toUTF8 document
        ∧ (withLayer none document).IsComponent
        ∧ (Component.compileDocument (withLayer none document)).outcome = .ok compiled
        ∧ (runCommandLine words look).output ≠ compiled.css ++ "\n" := by
  intro look words
  have hwords : Invocation.parse words = some ⟨false, .compile "a.json" none false⟩ := by decide
  let document : Value :=
    .object [("styles", .object [("a", .object [("content", .str "\x1b[31mred\x1b[0m")])])]
  have hdocument : Holds colouredFile.toUTF8 document :=
    ⟨colouredFile, fromUTF8?_toUTF8 colouredFile, by rfl⟩
  have hcompiled : (Component.compileDocument (withLayer none document)).outcome =
      .ok ⟨[("a", "a-2cv")],
        "@layer components \x7b .a-2cv \x7b content: \x1b[31mred\x1b[0m; \x7d \x7d"⟩ :=
    Report.outcome_eq_ok_of_toOption (by decide +kernel)
  refine ⟨hwords, document, _, hdocument,
    Component.exists_compileDocument_ok_iff.mp ⟨_, hcompiled⟩, hcompiled, ?_⟩
  have hrun : runCommandLine words look = compileBytes false "a.json" none false
      colouredFile.toUTF8 := by
    simp only [runCommandLine, hwords, Invocation.run, look]
  rw [hrun, compileBytes_of_holds hdocument, printCompiled_of_ok hcompiled]
  intro hverbatim
  have hfree : Text.ControlFree
      "@layer components \x7b .a-2cv \x7b content: \x1b[31mred\x1b[0m; \x7d \x7d".toList :=
    printed_eq_iff.mp hverbatim
  have hstands := hfree "\x1b[31mred\x1b[0m; \x7d \x7d".toList
    ⟨"@layer components \x7b .a-2cv \x7b content: ".toList, by decide⟩
  exact absurd hstands (by decide)

end Cascade.Command
