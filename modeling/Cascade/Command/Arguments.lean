import Cascade.Layer

/-!
# Command lines

Global options stand before the command's name and options of a command anywhere behind it. `--`
ends the options. An unknown option, a missing or surplus word or a value that is not allowed
makes the whole command line wrong, and a wrong command line has no further meaning.
-/

namespace Cascade

inductive Command where
  | version
  | layers
  | stylesheet
  /-- Compiles the document in a file, for another layer if one is given. -/
  | compile (file : String) (layer : Option Layer) (asJson : Bool)
  deriving DecidableEq, Repr

/-- A command, and whether the log is to be shown. -/
structure Invocation where
  verbose : Bool
  command : Command
  deriving DecidableEq, Repr

namespace Command

/-- Whether a word has the form of an option. A lone hyphen has not. -/
def isOption (word : String) : Bool :=
  match word.toList with
  | '-' :: _ :: _ => true
  | _ => false

/-! ## Global options -/

structure GlobalOptions where
  verbose : Bool := false
  version : Bool := false

/-- Whether the word is `-v`, perhaps with the letter repeated. -/
def isShortVerbose (word : String) : Bool :=
  match word.toList with
  | '-' :: letter :: letters => (letter :: letters).all (· = 'v')
  | _ => false

/-- Takes the global options off the front. -/
def globalOptions (found : GlobalOptions) : List String → Option (GlobalOptions × List String)
  | [] => some (found, [])
  | word :: rest =>
    if word = "--" then some (found, rest)
    else if ! isOption word then some (found, word :: rest)
    else if word = "--verbose" || isShortVerbose word then
      globalOptions { found with verbose := true } rest
    else if word = "--version" then globalOptions { found with version := true } rest
    else none

/-! ## Commands -/

/-- What stands behind `compile`: the files, the last layer that was named, and the form of the
output. -/
structure CompileOptions where
  files : List String := []
  layer : Option String := none
  asJson : Bool := false

/-- The value of `--layer=value`. -/
def layerValue? (word : String) : Option String :=
  let start := "--layer=".toList
  if start.isPrefixOf word.toList then some (String.ofList (word.toList.drop start.length))
  else none

/-- Reads what stands behind `compile`. The word behind `--layer` is its value, whatever it looks
like. -/
def compileOptions (found : CompileOptions) : List String → Option CompileOptions
  | [] => some found
  | "--" :: rest => some { found with files := found.files ++ rest }
  | "--json" :: rest => compileOptions { found with asJson := true } rest
  | ["--layer"] => none
  | "--layer" :: value :: rest => compileOptions { found with layer := some value } rest
  | word :: rest =>
    match layerValue? word with
    | some value => compileOptions { found with layer := some value } rest
    | none =>
      if isOption word then none
      else compileOptions { found with files := found.files ++ [word] } rest

/-- The compile command with these options: one file, and a layer that exists. -/
def ofCompileOptions (options : CompileOptions) : Option Command :=
  match options.files, options.layer with
  | [file], none => some (.compile file none options.asJson)
  | [file], some name => (Layer.ofName? name).map fun layer =>
      .compile file (some layer) options.asJson
  | _, _ => none

/-- A command that takes nothing; `--` alone is nothing. -/
def withoutArguments (command : Command) : List String → Option Command
  | [] => some command
  | ["--"] => some command
  | _ => none

/-- The command with this name and these words behind it. A name that looks like an option can
only stand behind `--`; it and what follows are then looked through for global options once more,
where `--version` still counts. -/
def ofWords (name : String) (rest : List String) : Option Command :=
  if name = "layers" then withoutArguments .layers rest
  else if name = "stylesheet" then withoutArguments .stylesheet rest
  else if name = "compile" then (compileOptions {} rest).bind ofCompileOptions
  else
    match globalOptions {} (name :: rest) with
    | some (found, _) => if found.version then some .version else none
    | none => none

end Command

/-- The meaning of a command line, if it has one. -/
def Invocation.parse (words : List String) : Option Invocation :=
  match Command.globalOptions {} words with
  | none => none
  | some (found, rest) =>
    if found.version then some ⟨found.verbose, .version⟩
    else
      match rest with
      | [] => none
      | name :: rest => (Command.ofWords name rest).map fun command => ⟨found.verbose, command⟩

end Cascade
