import Cascade.Report
import Cascade.Style.Rule

/-!
# Findings of a style object

The faults and notices of a sorted style object, in the order in which its parts are visited:
first the malformed entries of the block itself, then its nested selectors, then its container,
media and supports conditions, each with all that is inside. A width that is used as a media
condition is noticed behind the findings of its block, and only if that block declares anything.
-/

namespace Cascade.Block

/-- What there is to notice about a condition once its block has been visited. -/
def conditionNotices (rule : AtRule) (condition : String) (inner : Block) : List Finding :=
  if rule = .media && inner.declares then (Query.notices condition).map .notice else []

mutual

/-- The findings of a block at `path`. -/
def findings (path : List String) : Block → List Finding
  | mk ⟨malformed, _, nested, container, media, supports⟩ =>
    malformed.map (fun cause => .fault ⟨cause, path⟩)
      ++ nestedFindings path nested
      ++ groupFindings .container path container
      ++ groupFindings .media path media
      ++ groupFindings .supports path supports
termination_by structural block => block

def nestedFindings (path : List String) : List (String × Block) → List Finding
  | [] => []
  | (key, inner) :: rest =>
    findings (path ++ [key]) inner ++ nestedFindings path rest
termination_by structural nested => nested

def groupFindings (rule : AtRule) (path : List String) : List (String × Block) → List Finding
  | [] => []
  | (condition, inner) :: rest =>
    findings (path ++ [rule.keyword, condition]) inner
      ++ conditionNotices rule condition inner
      ++ groupFindings rule path rest
termination_by structural conditions => conditions

end

end Cascade.Block

namespace Cascade.Style

/-- Compiles a style object for a selector. The path of its faults begins with `name`. -/
def compileFor (selector name : String) (style : Members) : Report (List Rule) :=
  let block := Block.ofMembers style
  Report.ofFindings (block.findings [name]) (block.rules selector)

/-- Compiles a style object for a class. -/
def compile (className : String) (style : Members) : Report (List Rule) :=
  compileFor ("." ++ className) className style

end Cascade.Style
