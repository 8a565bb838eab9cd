import Blackboard.Http.Server
import Blackboard.Http.Form
import Blackboard.Http.MediaType

/-!
# HTTP exchanges

How requests come in over HTTP (`Http.Message.request`), and how a client writes them
(`Server.Request.message`).

* `GET /facts?query=…` selects, `PUT /facts` flushes the batch in its body, `DELETE /facts?…`
  forgets, and `GET /facts/all` lists the facts. `HEAD` is answered like `GET`, without the body.
* `OPTIONS` is answered everywhere: any origin may use these methods.
* What cannot be read is refused by its status alone.
-/

namespace Blackboard

namespace Http

/-! ## 1. Messages -/

/-- A request as it travels. The query is the encoded text behind the question mark. -/
structure Message where
  method : String
  path : String
  query : String
  contentType : Option String := none
  body : Option String := none
deriving Repr

/-- An address with more fields in its query. -/
def withFields (address : String) (fields : List (String × String)) : String :=
  if fields.isEmpty then address
  else address ++ (if address.contains '?' then "&" else "?") ++ Form.encodePairs fields

/-- Whether a character can stand in the scheme of an address. -/
def isSchemeChar (c : Char) : Bool :=
  c.isAlphanum || c == '+' || c == '-' || c == '.' || c == '~'

/-- What follows the scheme and the authority of an address; an address that begins with its path
    has neither. -/
def behindAuthority (address : List Char) : List Char :=
  match address.dropWhile isSchemeChar with
  | ':' :: '/' :: '/' :: rest => rest.dropWhile fun c => c != '/' && c != '?' && c != '#'
  | _ => address

/-- The message to an address, with or without scheme and authority. The query begins behind the
    first question mark, and a fragment does not travel. -/
def Message.ofAddress (method address : String) (contentType body : Option String) : Message :=
  let travels := (behindAuthority address.toList).takeWhile (· != '#')
  let path := travels.takeWhile (· != '?')
  { method, path := String.ofList path, query := String.ofList (travels.drop (path.length + 1)),
    contentType, body }

/-- The methods that other origins may use. -/
def allowedMethods : List String := ["GET", "PUT", "DELETE"]

/-- The origins and the headers that are allowed: any. -/
def anyAllowed : String := "*"

/-- An answer as it travels. Only JSON bodies are kept. -/
structure Answer where
  status : Nat
  body : Option String
  /-- Whether the answer tells which methods and headers are allowed. -/
  preflight : Bool := false
deriving Repr

/-- A request that is refused by its status alone. -/
abbrev Routed := Except Nat Server.Request

/-- The value of a field that must be there once. -/
def requiredField (name : String) (pairs : List (String × String)) : Except Nat String :=
  match pairs.filter (·.1 == name) with
  | [(_, v)] => .ok v
  | _ => .error 400

/-- The value of a field that may be there once. -/
def optionalField (name : String) (pairs : List (String × String)) : Except Nat (Option String) :=
  match pairs.filter (·.1 == name) with
  | [] => .ok none
  | [(_, v)] => .ok (some v)
  | _ => .error 400

/-- A query from the query string. -/
def routeSelect (m : Message) : Routed := do
  let text ← requiredField "query" (Form.decodePairs m.query)
  return .select (.ofText text)

/-- What to forget from the query string. -/
def routeForget (m : Message) : Routed := do
  let pairs := Form.decodePairs m.query
  return .forget ⟨← requiredField "clientId" pairs, ← optionalField "name" pairs⟩

/-- A batch from the body, if the body is announced as JSON. -/
def routeFlush (m : Message) : Routed :=
  if m.contentType.any isJsonType then .ok (.flush (.ofText (m.body.getD ""))) else .error 415

/-- The request that a message carries. -/
def Message.request (m : Message) : Routed :=
  if m.path = "/facts" then
    match m.method with
    | "GET" | "HEAD" => routeSelect m
    | "PUT" => routeFlush m
    | "DELETE" => routeForget m
    | _ => .error 405
  else if m.path = "/facts/all" then
    match m.method with
    | "GET" | "HEAD" => .ok .listFacts
    | _ => .error 405
  else .error 404

/-- Answers a message. -/
def serve (s : Store) (m : Message) : Answer × Store :=
  if m.method = "OPTIONS" then (⟨200, none, true⟩, s)
  else
    match m.request with
    | .error status => (⟨status, none, false⟩, s)
    | .ok r =>
      let (response, s) := Server.answer s r
      let body := response.json.map fun j => if m.method = "HEAD" then "" else j.text
      (⟨response.status, body, false⟩, s)

end Http

/-! ## 2. Writing requests -/

namespace Server.Request

/-- The message that carries a request. -/
def message : Request → Http.Message
  | .select query =>
    { method := "GET", path := "/facts", query := Form.encodePairs [("query", query.text)] }
  | .flush batch =>
    { method := "PUT", path := "/facts", query := "", contentType := some "application/json",
      body := some batch.text }
  | .forget params =>
    { method := "DELETE", path := "/facts",
      query := Form.encodePairs
        (("clientId", params.clientId) :: (params.name.map fun n => ("name", n)).toList) }
  | .listFacts => { method := "GET", path := "/facts/all", query := "" }

end Server.Request

/-- The path and the query of a message. -/
def Http.Message.target (m : Http.Message) : String :=
  if m.query.isEmpty then m.path else m.path ++ "?" ++ m.query

end Blackboard
