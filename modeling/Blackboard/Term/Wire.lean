import Blackboard.Term.Basic
import Blackboard.Json.Basic
import Blackboard.Failure

/-!
# The wire form of terms

On the wire a term is a JSON object with one member, whose key says what kind of term it is. A
reader takes the first key that it knows, in the fixed order of `Term.ofJson`, and leaves other
members alone.
-/

namespace Blackboard

namespace Literal

/-- The JSON value of a literal. A number that JSON cannot hold becomes `null`. -/
def toJson : Literal → Json
  | bool b => .bool b
  | number x => if x.isFinite then .number (.real x) else .null
  | string s => .string s
  | null => .null

/-- The literal of a JSON value; containers have none. -/
def ofJson? : Json → Option Literal
  | .bool b => some (bool b)
  | .number n => some (number n.toBinary64)
  | .string s => some (string s)
  | .null => some null
  | .array _ | .object _ => none

end Literal

namespace Term

/-- The wire form of a term. -/
def toJson : Term → Json
  | identifier name => .object [("id", .string name)]
  | word text => .object [("word", .string text)]
  | literal value => .object [("value", value.toJson)]
  | blobRef id => .object [("blobRef", .string id)]
  | .variable name => .object [("variable", .string name)]
  | wildcard => .object [("wildcard", .bool true)]
  | hole => .object [("hole", .bool true)]

/-- The term that the members of an object are the wire form of. -/
def ofMembers? (members : List (String × Json)) : Option Term :=
  match Json.member? "id" members with
  | some v => v.asString?.map identifier
  | none =>
  match Json.member? "word" members with
  | some v => v.asString?.map word
  | none =>
  match Json.member? "value" members with
  | some v => (Literal.ofJson? v).map literal
  | none =>
  match Json.member? "blobRef" members with
  | some v => v.asString?.map blobRef
  | none =>
  match Json.member? "variable" members with
  | some v => v.asString?.map .variable
  | none =>
  if (Json.member? "wildcard" members).isSome then some wildcard
  else if (Json.member? "hole" members).isSome then some hole
  else none

/-- Reads the wire form of a term. -/
def ofJson (j : Json) : Except Failure Term :=
  let term? :=
    match j with
    | .object members => ofMembers? members
    | _ => none
  match term? with
  | some t => .ok t
  | none => .error (.unknownWireTerm j.sorted.text)

end Term

end Blackboard
