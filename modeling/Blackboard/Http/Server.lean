import Blackboard.Wire.Message

/-!
# The server

What the server is asked and what it answers. A text that travels is kept together with the JSON
tokens that it is read as (`Payload`).

A request that is answered with a failure leaves the store as it was. Failures that the data is to
blame for have the status 400, all others 500; a batch that cannot be decoded is refused with 400
if its text is at fault and with 422 if its shape is.
-/

namespace Blackboard

/-- A text that travels, with the JSON tokens that it is read as. -/
structure Payload where
  text : String
  tokens : List Json.Token
deriving Repr

namespace Payload

/-- The payload that a value is sent as. The tokens are those of the text if a text can tell the
    numbers of the value, and readers are exact about numerals (`Json.Number.ofNumeral`). -/
def ofJson (j : Json) : Payload := ⟨j.text, j.tokens⟩

/-- The payload that a text is received as. -/
def ofText (text : String) : Payload := ⟨text, Json.Token.ofChars text.toList⟩

end Payload

namespace Server

/-- What a server is asked. -/
inductive Request where
  | select (query : Payload)
  | flush (batch : Payload)
  | forget (params : ForgetParams)
  | listFacts
deriving Repr

/-- What a server answers: a status, and a JSON value unless the request was refused unread. -/
structure Response where
  status : Nat
  json : Option Json
deriving Repr

/-! ## 1. Answers -/

/-- The status of a failure. -/
def statusOf (f : Failure) : Nat := if f.isValidation then 400 else 500

/-- The answer that reports a failure. -/
def failed (f : Failure) : Response := ⟨statusOf f, some (ErrorResponse.ofFailure f).toJson⟩

/-- The answer of success with a value. -/
def succeeded (j : Json) : Response := ⟨200, some j⟩

/-- The answer to what cannot be decoded. -/
def refused : DecodeFault → Response
  | .malformed => ⟨400, none⟩
  | .shape | .term _ => ⟨422, none⟩

/-- The answer to a result. -/
def respond {α : Type} (toJson : α → Json) : Except Failure α → Response
  | .ok a => succeeded (toJson a)
  | .error f => failed f

/-- The JSON form of the solutions of a query. -/
def solutionsJson (found : List Bindings) : Json := .array (found.map Bindings.toJson)

/-! ## 2. Requests -/

/-- Reads a query: an array of patterns, and nothing behind it. -/
def readQuery (query : Payload) : Except Failure (List Sentence) :=
  match (Sentence.takeList 1).whole query.tokens with
  | .ok patterns => .ok patterns
  | .error _ => .error (.parse "query" query.text .mismatch)

/-- Answers a request. What follows a batch in its text does not count. -/
def answer (s : Store) : Request → Response × Store
  | .select query => (respond solutionsJson ((readQuery query).bind s.selectBindings), s)
  | .flush batch =>
    match FlushRequest.take batch.tokens with
    | .error fault => (refused fault, s)
    | .ok (r, _) =>
      let (outcome, s) := s.apply r.clientId r.retractions r.assertions
      (respond (fun o => (FlushResponse.ofOutcome o).toJson) outcome, s)
  | .forget params =>
    let (n, s) :=
      match params.name with
      | some name => s.forgetAbout name
      | none => s.forgetBy params.clientId
    (succeeded (ForgetResponse.mk okStatus n).toJson, s)
  | .listFacts => (succeeded (.array (s.allFacts.map Json.string)), s)

end Server

end Blackboard
