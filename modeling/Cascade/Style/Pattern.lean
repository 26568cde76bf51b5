import Cascade.Fault
import Cascade.Style.Declaration

/-!
# Common patterns

Small builders: references to design tokens, keyframes, a focus ring for keyboards only, and style
objects that change under a media condition.
-/

namespace Cascade.Pattern

/-- A reference to a design token. -/
def token (category key : String) : String :=
  "var(--" ++ category ++ "-" ++ key ++ ")"

/-- One block of keyframes. Every member is declared, null ones too. -/
def frame (selector : String) (declarations : Members) : String :=
  selector ++ " \x7b " ++ declarationsText (declarations.map Declaration.ofMember) ++ " \x7d"

/-- The blocks of keyframes; stops at the first that is no object. -/
def frames : Members → Except NotObject (List String)
  | [] => .ok []
  | (selector, .object declarations) :: rest =>
    (frames rest).map (frame selector declarations :: ·)
  | (_, other) :: _ => .error ⟨other.kind⟩

/-- A named sequence of keyframes, such as `0%` and `100%`. -/
def keyframes (name : String) : Value → Except NotObject String
  | .object members =>
    (frames members).map fun blocks =>
      "@keyframes " ++ name ++ " \x7b " ++ " ".intercalate blocks ++ " \x7d"
  | other => .error ⟨other.kind⟩

/-- Drops the default focus ring and draws one, with further styles, for keyboard focus. -/
def focusVisible (styles : Members) : Members :=
  [("&:focus", .object [("outline", .str "none")]),
   ("&:focus-visible",
     .object <| Members.setAll
       [("outline", .str ("2px solid " ++ token "color" "primary-500")),
        ("outlineOffset", .str "2px")]
       styles)]

/-- The same for an argument that may be left out. Whatever counts as false stands for no further
styles, and any other value that is no object is refused. -/
def focusVisible? : (styles : Value := .null) → Option Members
  | .object styles => some (focusVisible styles)
  | other => if other.isTruthy then none else some (focusVisible [])

/-- Gives a style object one media condition in place of those that it has. -/
def underCondition (condition : String) (normal changed : Members) : Members :=
  normal.set "@media" (.object [(condition, .object changed)])

/-- Styles with a variant for readers who prefer less motion. -/
def reducedMotion (normal reduced : Members) : Members :=
  underCondition "reduced-motion" normal reduced

/-- Styles with a variant for dark mode. -/
def darkMode (light dark : Members) : Members :=
  underCondition "dark" light dark

end Cascade.Pattern
