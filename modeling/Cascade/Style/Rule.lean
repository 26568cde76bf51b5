import Cascade.Style.Block
import Cascade.Style.Declaration
import Cascade.Style.Query

/-!
# Rules

What a sorted style object compiles to. A block gives, in this order, the rule of its own
declarations, the rules of its nested selectors, and one conditional group for each of its
container, media and supports conditions. Nothing is written for what declares nothing: a block
without declarations has no rule of its own, and a group without rules is left out.

Malformed entries are passed over here. Whether there are any is the business of
`Cascade.Style.Findings`.
-/

namespace Cascade

inductive Rule where
  /-- Declarations for a selector. -/
  | style (selector : String) (declarations : List Declaration)
  /-- Rules under a condition. -/
  | group (rule : AtRule) (query : String) (rules : List Rule)

namespace Rule

mutual

def text : Rule → String
  | .style selector declarations =>
    selector ++ " \x7b " ++ declarationsText declarations ++ " \x7d"
  | .group rule query rules =>
    rule.keyword ++ " " ++ query ++ " \x7b " ++ " ".intercalate (texts rules) ++ " \x7d"

def texts : List Rule → List String
  | [] => []
  | r :: rest => r.text :: texts rest

end

@[simp] theorem texts_eq_map (rules : List Rule) : texts rules = rules.map text := by
  induction rules with
  | nil => rfl
  | cons r rest ih => simp [texts, ih]

/-- The rule that declares something for a selector, if there is something to declare. -/
def ofDeclarations (selector : String) (declarations : List Declaration) : List Rule :=
  if declarations.isEmpty then [] else [.style selector declarations]

/-- The group that holds the rules, if there are any. -/
def ofGroup (rule : AtRule) (condition : String) (rules : List Rule) : List Rule :=
  if rules.isEmpty then [] else [.group rule (rule.query condition) rules]

end Rule

namespace Block

mutual

/-- The rules of a block for a selector. -/
def rules (selector : String) : Block → List Rule
  | mk ⟨_, declarations, nested, container, media, supports⟩ =>
    Rule.ofDeclarations selector (declarations.map Declaration.ofMember)
      ++ nestedRules selector nested
      ++ groupRules .container selector container
      ++ groupRules .media selector media
      ++ groupRules .supports selector supports
termination_by structural block => block

/-- The rules of nested selectors, one after the other. -/
def nestedRules (selector : String) : List (String × Block) → List Rule
  | [] => []
  | (key, inner) :: rest =>
    rules (Selector.nest selector key) inner ++ nestedRules selector rest
termination_by structural nested => nested

/-- The groups for these conditions, one after the other. -/
def groupRules (rule : AtRule) (selector : String) : List (String × Block) → List Rule
  | [] => []
  | (condition, inner) :: rest =>
    Rule.ofGroup rule condition (rules selector inner) ++ groupRules rule selector rest
termination_by structural conditions => conditions

end

mutual

/-- Whether something is declared in the block, at any depth. -/
def declares : Block → Bool
  | mk ⟨_, declarations, nested, container, media, supports⟩ =>
    ! declarations.isEmpty || anyDeclares nested || anyDeclares container || anyDeclares media
      || anyDeclares supports
termination_by structural block => block

def anyDeclares : List (String × Block) → Bool
  | [] => false
  | (_, inner) :: rest => declares inner || anyDeclares rest
termination_by structural blocks => blocks

end

mutual

/-- A block compiles to nothing exactly if it declares nothing. -/
theorem rules_eq_nil_iff (selector : String) :
    ∀ b : Block, b.rules selector = [] ↔ b.declares = false
  | mk ⟨_, declarations, nested, container, media, supports⟩ => by
    have hn := nestedRules_eq_nil_iff selector nested
    have hc := groupRules_eq_nil_iff .container selector container
    have hm := groupRules_eq_nil_iff .media selector media
    have hs := groupRules_eq_nil_iff .supports selector supports
    cases declarations <;> simp [rules, declares, Rule.ofDeclarations, hn, hc, hm, hs, and_assoc]

theorem nestedRules_eq_nil_iff (selector : String) :
    ∀ nested : List (String × Block),
      nestedRules selector nested = [] ↔ anyDeclares nested = false
  | [] => by simp [nestedRules, anyDeclares]
  | (key, inner) :: rest => by
    simp [nestedRules, anyDeclares, rules_eq_nil_iff _ inner,
      nestedRules_eq_nil_iff selector rest]

theorem groupRules_eq_nil_iff (rule : AtRule) (selector : String) :
    ∀ conditions : List (String × Block),
      groupRules rule selector conditions = [] ↔ anyDeclares conditions = false
  | [] => by simp [groupRules, anyDeclares]
  | (condition, inner) :: rest => by
    have hi := rules_eq_nil_iff selector inner
    have hr := groupRules_eq_nil_iff rule selector rest
    by_cases h : inner.declares = false <;>
      simp [groupRules, anyDeclares, Rule.ofGroup, hr, hi, h]

end

end Block

end Cascade
