import Cascade.Json.Token

/-!
# Reading JSON

A machine reads tokens from left to right. Its state says what must come next, with the lists and
objects that are still open on a stack. Members of an object are set one after the other, so a
name that comes again keeps its first place and takes the last value.
-/

namespace Cascade.Json

/-- A list or object around the value that is being read. -/
inductive Frame where
  /-- A list with the items so far, last first. -/
  | list (items : List Value)
  /-- An object with the members so far, and the name of the value that is being read. -/
  | object (members : Members) (name : String)

inductive State where
  /-- A value must come; in a list just opened, its end may come instead. -/
  | value (opened : Bool) (stack : List Frame)
  /-- A member's name must come; in an object just opened, its end may come instead. -/
  | name (opened : Bool) (members : Members) (stack : List Frame)
  /-- A colon must come behind a member's name. -/
  | colon (members : Members) (name : String) (stack : List Frame)
  /-- A value has been read. -/
  | after (value : Value) (stack : List Frame)

namespace State

/-- What is wrong if this state meets a token that it cannot take, or the end of the text. -/
def complaint : State → Problem
  | value _ _ => .expectingValue
  | name _ _ _ => .expectingName
  | colon _ _ _ => .expectingColon
  | after _ [] => .extraData
  | after _ (_ :: _) => .expectingComma

/-- Takes one token. -/
def step (state : State) (placed : Placed) : Except ReadFault State :=
  match state, placed.token with
  | value _ stack, .scalar v => .ok (.after v stack)
  | value _ stack, .text s => .ok (.after (.str s) stack)
  | value _ _, .badText problem offset => .error (.malformed problem (placed.start + offset))
  | value _ _, .oversized => .error .oversizedInteger
  | value _ stack, .openList => .ok (.value true (.list [] :: stack))
  | value _ stack, .openObject => .ok (.name true [] stack)
  | value true (.list items :: stack), .closeList => .ok (.after (.list items.reverse) stack)
  | name _ members stack, .text s => .ok (.colon members s stack)
  | name _ _ _, .badText problem offset => .error (.malformed problem (placed.start + offset))
  | name true members stack, .closeObject => .ok (.after (.object members) stack)
  | colon members key stack, .colon => .ok (.value false (.object members key :: stack))
  | after v (.list items :: stack), .comma => .ok (.value false (.list (v :: items) :: stack))
  | after v (.list items :: stack), .closeList => .ok (.after (.list (v :: items).reverse) stack)
  | after v (.object members key :: stack), .comma => .ok (.name false (members.set key v) stack)
  | after v (.object members key :: stack), .closeObject =>
    .ok (.after (.object (members.set key v)) stack)
  | state, _ => .error (.malformed state.complaint placed.start)

/-- Takes tokens one after the other. -/
def run (state : State) : List Placed → Except ReadFault State
  | [] => .ok state
  | placed :: rest =>
    match state.step placed with
    | .ok next => next.run rest
    | .error fault => .error fault

/-- The value that has been read at the end of a text of this length. -/
def finish (length : Nat) : State → Except ReadFault Value
  | after v [] => .ok v
  | state => .error (.malformed state.complaint length)

end State

/-- Reads a JSON text. -/
def read (text : List Char) : Except ReadFault Value :=
  if text.head? = some '\ufeff' then .error (.malformed .byteOrderMark 0)
  else
    match (State.value false []).run (tokens text) with
    | .ok state => state.finish text.length
    | .error fault => .error fault

end Cascade.Json
