import Cascade.Command.Run
import Cascade.Proofs.Component.Json

/-!
# What compiling prints

A text is printed without the terminal control sequences that stand in it, so it is printed
exactly as it is if none does (`printed_eq_iff`). The JSON of a component never has one. Without
the log that `--verbose` asks for, a success prints the component and nothing else, and a refusal
a message and nothing else.
-/

namespace Cascade.Command

/-! ## Texts -/

/-- A text is printed as it is exactly if no control sequence stands in it. -/
theorem printed_eq_iff {text : String} :
    printed text = text ++ "\n" ↔ Text.ControlFree text.toList := by
  rw [printed, String.append_left_inj, ← Text.dropControlSequences_eq_self_iff,
    ← String.toList_inj, String.toList_ofList]

/-- A beginning without an escape character is printed as it is. -/
theorem printed_append {start : String} (h : '\x1b' ∉ start.toList) (rest : String) :
    printed (start ++ rest) = start ++ printed rest := by
  rw [printed, String.toList_append, Text.dropControlSequences_append h, String.ofList_append,
    String.ofList_toList, String.append_assoc, printed]

theorem printed_json (compiled : Compiled) : printed compiled.json = compiled.json ++ "\n" := by
  have hescape : '\x1b' ∉ compiled.json.toList :=
    Json.not_mem_of_written compiled.written_json (by decide)
  rw [printed_eq_iff, ← Text.dropControlSequences_eq_self_iff]
  exact Text.dropControlSequences_of_not_mem hescape

/-! ## Compiled documents -/

/-- The log shows warnings only, unless it is to show all. -/
theorem logText_eq_empty {notices : List Notice} (h : ∀ n ∈ notices, n.level = "DEBUG") :
    logText false notices = "" := by
  have hnone : notices.filterMap (fun notice =>
      if false || notice.level = "WARNING" then some (notice.line ++ "\n") else none) = [] := by
    rw [List.filterMap_eq_nil_iff]
    intro n hn
    simp [h n hn]
  rw [logText, hnone]
  rfl

variable {document : Value} {asJson : Bool}

theorem printCompiled_of_ok {compiled : Compiled}
    (h : (Component.compileDocument document).outcome = .ok compiled) :
    printCompiled false asJson document =
      .finished 0 (if asJson then compiled.json ++ "\n" else printed compiled.css) "" := by
  simp only [printCompiled, h]
  rw [logText_eq_empty fun n => Component.level_of_mem_compileDocument]
  cases asJson with
  | false => rfl
  | true => simp only [if_true, printed_json]

theorem printCompiled_of_error {fault : Fault}
    (h : (Component.compileDocument document).outcome = .error fault) :
    printCompiled false asJson document =
      .finished 1 "" ("Config error: " ++ printed fault.message) := by
  simp only [printCompiled, h]
  rw [logText_eq_empty fun n => Component.level_of_mem_compileDocument,
    printed_append (by decide), String.empty_append]

end Cascade.Command
