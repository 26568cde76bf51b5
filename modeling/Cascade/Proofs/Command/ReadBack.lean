import Cascade.Proofs.Command.File
import Cascade.Proofs.Command.Printed

/-!
# Printed JSON read back

What `compile --json` prints can be given to the same reader that reads the files of components.
It finds the class names and the style text of the component, whatever characters are in them:
written JSON has neither an escape character, which printing might leave out with what follows,
nor a carriage return, which reading would take for a line end.
-/

namespace Cascade.Command

/-- A file with the JSON of a compiled component holds the component. -/
theorem holds_json {compiled : Compiled} (hkeys : (compiled.classes.map Prod.fst).Nodup) :
    Holds (compiled.json ++ "\n").toUTF8 compiled.document := by
  have htext : (compiled.json ++ "\n").toList = compiled.json.toList ++ ['\n'] := by
    rw [String.toList_append]
    rfl
  apply holds_toUTF8
  · rw [htext, List.mem_append, not_or]
    exact ⟨Json.not_mem_of_written compiled.written_json (by decide), by decide⟩
  · rw [htext]
    exact Json.read_of_readsAs (Compiled.readsAs_json hkeys)
      (Json.not_mem_of_written compiled.written_json (by decide))

/-- **Printed JSON reads back as what was compiled.** If the file of a command line with `--json`
holds a document that compiles, the command succeeds, and the text that it prints, taken for a
file, holds an object of two members: the class names, in their order, and the style text. -/
theorem compile_json_read_back {words : List String} {look : String → FileContent}
    {verbose : Bool} {file : String} {layer : Option Layer} {data : ByteArray} {document : Value}
    {compiled : Compiled}
    (hwords : Invocation.parse words = some ⟨verbose, .compile file layer true⟩)
    (hfile : look file = .bytes data) (hdocument : Holds data document)
    (hcompiled : (Component.compileDocument (withLayer layer document)).outcome = .ok compiled) :
    (runCommandLine words look).code = 0
      ∧ ∀ again, Holds (runCommandLine words look).output.toUTF8 again ↔
        again = .object
          [("class_map", .object (compiled.classes.map fun (key, name) => (key, .str name))),
           ("css", .str compiled.css)] := by
  -- Reading keeps one member for each key, so no two class names may have the same key.
  have hkeys := Component.nodup_classes (keysDistinct_withLayer hdocument.keysDistinct layer)
    hcompiled
  have hrun : runCommandLine words look =
      printCompiled verbose true (withLayer layer document) := by
    simp only [runCommandLine, hwords, Invocation.run, hfile, compileBytes_of_holds hdocument]
  have houtput : (runCommandLine words look).output = compiled.json ++ "\n" := by
    simp only [hrun, printCompiled, hcompiled, if_true, Outcome.output, printed_json]
  refine ⟨by simp only [hrun, printCompiled, hcompiled, Outcome.code], fun again => ?_⟩
  rw [houtput]
  constructor
  · intro hagain
    exact hagain.unique (holds_json hkeys)
  · rintro rfl
    exact holds_json hkeys

/-- A file whose one style has a quotation mark and a character of the higher planes in its key,
and an escape character and a carriage return in a value. -/
def oddFile : String :=
  "\x7b\"styles\": \x7b\"a\\\" 😀\": \x7b\"content\": \"\\u001b[1m\\r\\n\"\x7d\x7d\x7d"

theorem compile_json_read_back_odd :
    let words := ["compile", "odd.json", "--json"]
    let look := fun _ : String => FileContent.bytes oddFile.toUTF8
    Invocation.parse words = some ⟨false, .compile "odd.json" none true⟩
      ∧ look "odd.json" = .bytes oddFile.toUTF8
      ∧ ∃ document compiled, Holds oddFile.toUTF8 document
        ∧ (Component.compileDocument (withLayer none document)).outcome = .ok compiled
        ∧ Holds (runCommandLine words look).output.toUTF8
          (.object
            [("class_map", .object [("a\" 😀", .str "a\" 😀-nnramq")]),
             ("css", .str <|
              "@layer components \x7b .a\" 😀-nnramq \x7b " ++
                "content: \x1b[1m\r\n; \x7d \x7d")]) := by
  intro words look
  have hwords : Invocation.parse words = some ⟨false, .compile "odd.json" none true⟩ := by decide
  let document : Value :=
    .object [("styles", .object [("a\" 😀", .object [("content", .str "\x1b[1m\r\n")])])]
  have hdocument : Holds oddFile.toUTF8 document := ⟨oddFile, fromUTF8?_toUTF8 oddFile, by rfl⟩
  have hcompiled : (Component.compileDocument (withLayer none document)).outcome =
      .ok ⟨[("a\" 😀", "a\" 😀-nnramq")],
        "@layer components \x7b .a\" 😀-nnramq \x7b " ++
          "content: \x1b[1m\r\n; \x7d \x7d"⟩ :=
    Report.outcome_eq_ok_of_toOption (by decide +kernel)
  obtain ⟨-, hread⟩ := compile_json_read_back hwords (show look "odd.json" = _ from rfl) hdocument
    hcompiled
  exact ⟨hwords, rfl, document, _, hdocument, hcompiled, (hread _).mpr rfl⟩

end Cascade.Command
