import Blackboard.Json.Token

/-!
# Reading JSON values

The tokens of a text are read one by one. What has been read of the containers that are still open
is kept in layers, the innermost first, so reading is a walk of a small machine over the tokens and
needs no recursion into the text.

`take?` reads the value at the front of a row of tokens, and `skip?` leaves a value out without a
look at what its strings spell.
-/

namespace Blackboard.Json

/-! ## 1. The machine -/

/-- An open container with the place at which its next value goes. What was read before stands in
    reverse order. -/
inductive Layer where
  | item (before : List Json)
  | member (before : List (String × Json)) (key : String)
deriving Repr

/-- What has been read, and what may come next. -/
inductive ReadState where
  /-- A value. -/
  | value (around : List Layer)
  /-- The first item of an array, or its end. -/
  | itemOrEnd (around : List Layer)
  /-- The first key of an object, or its end. -/
  | keyOrEnd (around : List Layer)
  /-- A key. -/
  | key (before : List (String × Json)) (around : List Layer)
  /-- The colon after a key. -/
  | colon (before : List (String × Json)) (key : String) (around : List Layer)
  /-- A comma or the end of the container in whose place a value was read. -/
  | separator (value : Json) (layer : Layer) (around : List Layer)
  /-- Nothing: the value is complete. -/
  | complete (value : Json)
deriving Repr

/-- Puts a value into its place. -/
def deliver (v : Json) : List Layer → ReadState
  | [] => .complete v
  | layer :: around => .separator v layer around

/-- One token. -/
def ReadState.step : ReadState → Token → Option ReadState
  | .value around, .scalar v => some (deliver v around)
  | .value around, .openArray => some (.itemOrEnd around)
  | .value around, .openObject => some (.keyOrEnd around)
  | .itemOrEnd around, .closeArray => some (deliver (.array []) around)
  | .itemOrEnd around, .scalar v => some (.separator v (.item []) around)
  | .itemOrEnd around, .openArray => some (.itemOrEnd (.item [] :: around))
  | .itemOrEnd around, .openObject => some (.keyOrEnd (.item [] :: around))
  | .keyOrEnd around, .closeObject => some (deliver (.object []) around)
  | .keyOrEnd around, .scalar (.string k) => some (.colon [] k around)
  | .key before around, .scalar (.string k) => some (.colon before k around)
  | .colon before k around, .colon => some (.value (.member before k :: around))
  | .separator v (.item before) around, .comma => some (.value (.item (v :: before) :: around))
  | .separator v (.item before) around, .closeArray =>
    some (deliver (.array (v :: before).reverse) around)
  | .separator v (.member before k) around, .comma => some (.key ((k, v) :: before) around)
  | .separator v (.member before k) around, .closeObject =>
    some (deliver (.object ((k, v) :: before).reverse) around)
  | _, _ => none

/-- Lets the machine walk over the tokens, which it sees through `view`, until a value is complete.
    The answer is the value and the tokens behind it. -/
def ReadState.run (view : Token → Token) : ReadState → List Token → Option (Json × List Token)
  | .complete v, rest => some (v, rest)
  | _, [] => none
  | state, t :: rest =>
    match state.step (view t) with
    | some next => next.run view rest
    | none => none

/-! ## 2. Values -/

/-- Reads the value at the front of a row of tokens. -/
def take? : List Token → Option (Json × List Token) := (ReadState.value []).run id

/-- A token as it counts in a value that is left out: what a string spells does not matter. -/
def Token.unread : Token → Token
  | unpaired => scalar (.string "")
  | t => t

/-- What follows the value at the front of a row of tokens. -/
def skip? (ts : List Token) : Option (List Token) :=
  ((ReadState.value []).run Token.unread ts).map Prod.snd

/-- Reads a text that is one value and nothing else, with no more than `depthLimit` containers
    around one another. -/
def ofText? (text : String) : Option Json :=
  match take? (Token.ofChars text.toList) with
  | some (v, []) => if v.isSound depthLimit then some v else none
  | _ => none

end Blackboard.Json
