import Cascade.Number.Shortest
import Cascade.Text.Quoted
import Cascade.Value.Basic

/-!
# The text of a value

Two written forms. `Value.literal` shows a value so that its kind can be seen: texts are quoted,
lists and objects are bracketed. `Value.text` is the same except for a text on its own, which
stands for itself.
-/

namespace Cascade.Value

mutual

/-- The value as it is shown in messages and inside lists and objects. -/
def literal : Value → String
  | .null => "None"
  | .bool true => "True"
  | .bool false => "False"
  | .int n => toString n
  | .float x => x.text
  | .str s => Text.quoted s
  | .list items => "[" ++ ", ".intercalate (literals items) ++ "]"
  | .object members => "\x7b" ++ ", ".intercalate (memberLiterals members) ++ "\x7d"

def literals : List Value → List String
  | [] => []
  | v :: rest => v.literal :: literals rest

def memberLiterals : List (String × Value) → List String
  | [] => []
  | (key, v) :: rest => (Text.quoted key ++ ": " ++ v.literal) :: memberLiterals rest

end

/-- The value as plain text. -/
def text : Value → String
  | .str s => s
  | v => v.literal

end Cascade.Value
