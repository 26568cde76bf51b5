import Cascade.Notice
import Cascade.Style.Key

/-!
# Media conditions

The condition of a media group may be the name of a breakpoint or any condition in parentheses.
Anything else is taken for a least width.
-/

namespace Cascade.Query

/-- The named breakpoints and their conditions. -/
def breakpoints : List (String × String) :=
  [("mobile", "(max-width: 640px)"),
   ("tablet", "(min-width: 641px) and (max-width: 1024px)"),
   ("desktop", "(min-width: 1025px)"),
   ("wide", "(min-width: 1441px)"),
   ("print", "print"),
   ("reduced-motion", "(prefers-reduced-motion: reduce)"),
   ("dark", "(prefers-color-scheme: dark)"),
   ("light", "(prefers-color-scheme: light)"),
   ("high-contrast", "(prefers-contrast: high)")]

theorem mem_breakpoints {condition query : String}
    (h : breakpoints.lookup condition = some query) :
    (condition, query) ∈ breakpoints := by
  obtain ⟨before, after, hsplit, -⟩ := List.lookup_eq_some_iff.mp h
  rw [hsplit]
  exact List.mem_append_right before List.mem_cons_self

/-- Whether the condition begins and ends with parentheses. -/
def isParenthesized (condition : String) : Bool :=
  condition.toList.head? = some '(' && condition.toList.getLast? = some ')'

/-- Whether the condition is neither a breakpoint nor in parentheses. -/
def isWidth (condition : String) : Bool :=
  (breakpoints.lookup condition).isNone && ! isParenthesized condition

/-- The media query for a condition. -/
def resolve (condition : String) : String :=
  match breakpoints.lookup condition with
  | some query => query
  | none =>
    if isParenthesized condition then condition else "(min-width: " ++ condition ++ ")"

/-- What there is to notice about a condition that is resolved. -/
def notices (condition : String) : List Notice :=
  if isWidth condition then [.unknownBreakpoint condition] else []

theorem mem_notices {condition : String} {n : Notice} (h : n ∈ notices condition) :
    n = .unknownBreakpoint condition := by
  unfold notices at h
  split at h
  · exact List.mem_singleton.mp h
  · cases h

/-- What holds of the characters of the condition and of the fixed texts holds of those of the
query. -/
theorem forall_mem_resolve {p : Char → Prop} {condition : String}
    (hqueries : ∀ entry ∈ breakpoints, ∀ c ∈ entry.2.toList, p c)
    (hopen : ∀ c ∈ "(min-width: ".toList, p c) (hclose : ∀ c ∈ ")".toList, p c)
    (hcondition : ∀ c ∈ condition.toList, p c) : ∀ c ∈ (resolve condition).toList, p c := by
  unfold resolve
  split
  · rename_i query hquery
    exact hqueries _ (mem_breakpoints hquery)
  · split
    · exact hcondition
    · rw [String.toList_append, String.toList_append]
      exact List.forall_mem_append.mpr ⟨List.forall_mem_append.mpr ⟨hopen, hcondition⟩, hclose⟩

end Cascade.Query

namespace Cascade.AtRule

/-- The condition as it is written behind the rule's keyword: only media conditions have names. -/
def query (rule : AtRule) (condition : String) : String :=
  match rule with
  | .media => Query.resolve condition
  | .container => condition
  | .supports => condition

end Cascade.AtRule
