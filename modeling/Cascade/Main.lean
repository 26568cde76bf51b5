import Cascade.Command.Run

/-!
# The command line program

Looks at the one file that a command names, carries the command out and prints what it comes to.
-/

namespace Cascade

/-- The content of a file on disk. A name that cannot be opened counts as missing. -/
def readFile (path : String) : IO FileContent := do
  if path.isEmpty then return .missing
  match ← (IO.FS.readBinFile path).toBaseIO with
  | .ok data => return .bytes data
  | .error (.inappropriateType ..) => return .directory
  | .error _ => return .missing

/-- Prints an outcome and gives its exit code. -/
def Outcome.print (outcome : Outcome) : IO UInt32 := do
  IO.eprint outcome.errors
  IO.print outcome.output
  return outcome.code.toUInt32

end Cascade

def main (words : List String) : IO UInt32 := do
  let content ←
    match Cascade.Invocation.parse words with
    | some ⟨_, .compile file _ _⟩ => Cascade.readFile file
    | _ => pure .missing
  (Cascade.runCommandLine words fun _ => content).print
