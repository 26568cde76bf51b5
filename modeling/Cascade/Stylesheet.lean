import Cascade.Layer

/-!
# The base stylesheet

What every page needs before component styles: the layer statement, a small reset and the utility
classes. Utility rules have no specificity of their own (`:where`), so anything may override them.
-/

namespace Cascade.Stylesheet

/-- A rule for a utility class. Its name begins with `u-`, which is put before a name without it. -/
def utility (name declarations : String) : String :=
  let className := if ['u', '-'].isPrefixOf name.toList then name else "u-" ++ name
  Layer.utilities.wrap
    (":where(." ++ className ++ ") \x7b " ++ Text.strip declarations ++ " \x7d")

/-- A rule for a component class. -/
def component (name declarations : String) : String :=
  Layer.components.wrap ("." ++ name ++ " \x7b " ++ Text.strip declarations ++ " \x7d")

/-- Rules of the reset, one a line. -/
def resetRules : List String :=
  ["*, *::before, *::after \x7b box-sizing: border-box; \x7d",
   "* \x7b margin: 0; \x7d",
   "body \x7b line-height: 1.5; -webkit-font-smoothing: antialiased; \x7d",
   "img, picture, video, canvas, svg \x7b display: block; max-width: 100%; \x7d",
   "input, button, textarea, select \x7b font: inherit; \x7d",
   "p, h1, h2, h3, h4, h5, h6 \x7b overflow-wrap: break-word; \x7d",
   ":focus \x7b outline: 2px solid transparent; outline-offset: 2px; \x7d",
   ":focus-visible \x7b outline: 2px solid currentColor; outline-offset: 2px; \x7d",
   "@media (prefers-reduced-motion: reduce) \x7b *, *::before, *::after \x7b" ++
     " animation-duration: 0.01ms !important;" ++
     " animation-iteration-count: 1 !important;" ++
     " transition-duration: 0.01ms !important;" ++
     " scroll-behavior: auto !important; \x7d \x7d"]

/-- The reset layer. -/
def reset : String :=
  Layer.reset.wrap ("\n".intercalate resetRules)

/-- The utility classes, one a line. -/
def utilities : String :=
  "\n".intercalate
    [utility "stack" <|
       "display: flex; flex-direction: column; justify-content: flex-start;" ++
       " gap: var(--space-4, 1rem);",
     utility "cluster" <|
       "display: flex; flex-wrap: wrap; gap: var(--space-4, 1rem);" ++
       " justify-content: flex-start; align-items: center;",
     utility "center" <|
       "box-sizing: content-box; margin-inline: auto;" ++
       " max-inline-size: var(--measure, 60ch);" ++
       " padding-inline-start: var(--space-4, 1rem);" ++
       " padding-inline-end: var(--space-4, 1rem);",
     utility "grid" <|
       "display: grid; gap: var(--space-4, 1rem);" ++
       " grid-template-columns: repeat(auto-fit, minmax(var(--grid-min, 16rem), 1fr));",
     utility "visually-hidden" <|
       "position: absolute !important; width: 1px !important;" ++
       " height: 1px !important; padding: 0 !important; margin: -1px !important;" ++
       " overflow: hidden !important; clip: rect(0, 0, 0, 0) !important;" ++
       " white-space: nowrap !important; border: 0 !important;"]

/-- The whole sheet: layer statement, reset and utilities. -/
def base : String :=
  "\n\n".intercalate [Layer.statement, reset, utilities]

end Cascade.Stylesheet
