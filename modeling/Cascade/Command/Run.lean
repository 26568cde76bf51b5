import Cascade.Command.Arguments
import Cascade.Component.Compile
import Cascade.Json.Reader
import Cascade.Stylesheet
import Cascade.Text.Plain

/-!
# Running a command

A command is carried out against a view of the files, which is all that it takes from outside. The
outcome says what to print and with which code to end.
-/

namespace Cascade

/-- What is found under a name. -/
inductive FileContent where
  | missing
  | directory
  | bytes (data : ByteArray)

/-- Why a command breaks off without a message of its own. -/
inductive Breakdown where
  | notUtf8
  | isDirectory
  | oversizedInteger
  deriving DecidableEq, Repr

inductive Outcome where
  /-- The command line is wrong. -/
  | usage
  | finished (code : Nat) (output errors : String)
  | brokenOff (breakdown : Breakdown)

/-- What is printed when a breakdown ends the run. -/
def Breakdown.message : Breakdown → String
  | notUtf8 => "the file is not UTF-8 text"
  | isDirectory => "the file is a directory"
  | oversizedInteger => "the file holds a whole number with too many digits"

namespace Outcome

/-- The exit code of the run. -/
def code : Outcome → Nat
  | usage => 2
  | finished code _ _ => code
  | brokenOff _ => 1

/-- What goes to the standard output. -/
def output : Outcome → String
  | finished _ output _ => output
  | _ => ""

/-- What goes to the error output. -/
def errors : Outcome → String
  | usage =>
    "usage: modern-css [-v] [--version] " ++
      "layers | stylesheet | compile [--layer LAYER] [--json] FILE\n"
  | finished _ _ errors => errors
  | brokenOff breakdown => breakdown.message ++ "\n"

end Outcome

namespace Command

/-- The last part of a file's path. -/
def baseName (path : String) : String :=
  ((path.splitOn "/").filter fun part => part ≠ "" && part ≠ ".").getLast?.getD ""

/-- Gives a document another layer; only an object has one. -/
def withLayer (layer : Option Layer) (document : Value) : Value :=
  match layer, document with
  | some layer, .object members => .object (Members.set "layer" (.str layer.name) members)
  | _, document => document

/-- The lines of the log that are shown: warnings always, the rest if wanted. -/
def logText (verbose : Bool) (notices : List Notice) : String :=
  String.join <| notices.filterMap fun notice =>
    if verbose || notice.level = "WARNING" then some (notice.line ++ "\n") else none

/-- A text as it is printed: plain, so that it can go into a file, and with an end of its last
line. The log is written as it is. -/
def printed (text : String) : String :=
  String.ofList (Text.dropControlSequences text.toList) ++ "\n"

/-- Compiles a document and prints the result. -/
def printCompiled (verbose asJson : Bool) (document : Value) : Outcome :=
  let report := Component.compileDocument document
  let log := logText verbose report.notices
  match report.outcome with
  | .error fault => .finished 1 "" (log ++ printed ("Config error: " ++ fault.message))
  | .ok compiled => .finished 0 (printed (if asJson then compiled.json else compiled.css)) log

/-- Compiles the document that these bytes hold. -/
def compileBytes (verbose : Bool) (file : String) (layer : Option Layer) (asJson : Bool)
    (data : ByteArray) : Outcome :=
  match String.fromUTF8? data with
  | none => .brokenOff .notUtf8
  | some content =>
    let text := Text.unifyNewlines content.toList
    match Json.read text with
    | .error .oversizedInteger => .brokenOff .oversizedInteger
    | .error (.malformed problem position) =>
      .finished 1 ""
        (printed ("Invalid JSON in " ++ baseName file ++ ": " ++ problem.describe text position))
    | .ok document => printCompiled verbose asJson (withLayer layer document)

end Command

/-- The version of the program. -/
def version : String := "0.1.0"

/-- Carries out a command. A file that is missing makes the command line wrong. -/
def Invocation.run (invocation : Invocation) (look : String → FileContent) : Outcome :=
  match invocation.command with
  | .version => .finished 0 (Command.printed ("modern-css, version " ++ version)) ""
  | .layers => .finished 0 (Command.printed Layer.statement) ""
  | .stylesheet => .finished 0 (Command.printed Stylesheet.base) ""
  | .compile file layer asJson =>
    match look file with
    | .missing => .usage
    | .directory => .brokenOff .isDirectory
    | .bytes data => Command.compileBytes invocation.verbose file layer asJson data

/-- Carries out a command line. -/
def runCommandLine (words : List String) (look : String → FileContent) : Outcome :=
  match Invocation.parse words with
  | none => .usage
  | some invocation => invocation.run look

end Cascade
