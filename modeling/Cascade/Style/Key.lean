/-!
# Keys of a style object

What an entry of a style object means is decided from its key alone: a nested selector begins with
`&` or a space, three words open groups of conditional styles, and every other key is a property.
-/

namespace Cascade

/-- The rules that hold styles under a condition. -/
inductive AtRule where
  | container | media | supports
  deriving DecidableEq, Repr

namespace AtRule

def all : List AtRule :=
  [.container, .media, .supports]

/-- The word that opens the rule. -/
def keyword : AtRule → String
  | .container => "@container"
  | .media => "@media"
  | .supports => "@supports"

def ofKeyword? (s : String) : Option AtRule :=
  all.find? (·.keyword = s)

theorem keyword_of_ofKeyword? {s : String} {rule : AtRule} (h : ofKeyword? s = some rule) :
    rule.keyword = s := by
  simpa using List.find?_some h

end AtRule

/-- What the key of an entry denotes. -/
inductive KeyKind where
  | property
  | nested
  | group (rule : AtRule)
  deriving DecidableEq, Repr

namespace KeyKind

def all : List KeyKind :=
  [.property, .nested, .group .container, .group .media, .group .supports]

def name : KeyKind → String
  | .property => "property"
  | .nested => "nested_selector"
  | .group .container => "container"
  | .group .media => "media"
  | .group .supports => "supports"

/-- The kind of a key. -/
def ofKey (key : String) : KeyKind :=
  match key.toList with
  | '&' :: _ => .nested
  | ' ' :: _ => .nested
  | _ =>
    match AtRule.ofKeyword? key with
    | some rule => .group rule
    | none => .property

theorem ofKey_keyword (rule : AtRule) : ofKey rule.keyword = .group rule := by
  cases rule <;> decide

end KeyKind

namespace Selector

/-- The selector of a nested entry: a leading `&` stands for the parent, and any other key is
appended to it. -/
def nest (parent key : String) : String :=
  match key.toList with
  | '&' :: rest => parent ++ String.ofList rest
  | _ => parent ++ key

end Selector

end Cascade
