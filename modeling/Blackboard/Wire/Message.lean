import Blackboard.Json.Decode
import Blackboard.Term.Wire
import Blackboard.Store.Query

/-!
# Messages between clients and the server

Each message has a JSON form with its fields in a fixed order (`toJson`) and is read back by field
names, in any order and with other members left alone (`take`). A message may also be read from an
array of its fields.

Terms stand in messages in their wire form.
-/

namespace Blackboard

/-! ## 1. Sentences and bindings -/

namespace Sentence

/-- The JSON form of a sentence. -/
def toJson (s : Sentence) : Json := .array (s.map Term.toJson)

/-- The JSON form of a list of sentences. -/
def listToJson (ss : List Sentence) : Json := .array (ss.map toJson)

end Sentence

/-- Reads a term within `level` containers of a text. -/
def Term.take (level : Nat) : Json.Reader Term := fun ts => do
  let (j, ts) ← Json.takeValue level ts
  return (← (Term.ofJson j).mapError .term, ts)

/-- Reads a sentence whose array is the container of the given level. -/
def Sentence.take (level : Nat) : Json.Reader Sentence := Json.takeArray (Term.take level)

/-- Reads a list of sentences whose array is the container of the given level. -/
def Sentence.takeList (level : Nat) : Json.Reader (List Sentence) :=
  Json.takeArray (Sentence.take (level + 1))

namespace Bindings

/-- The JSON form of bindings. -/
def toJson (b : Bindings) : Json := .object (b.entries.map fun (name, t) => (name, t.toJson))

/-- Reads a name with its term into bindings; of a name that stands there twice the last term
    counts, in the first place. -/
def takeEntry (level : Nat) (b : Bindings) : Json.Reader Bindings := fun ts => do
  let (name, ts) ← Json.takeKey ts
  let (t, ts) ← Term.take level (← Json.takeColon ts)
  return (b.insert name t, ts)

/-- Reads bindings whose object is the container of the given level. -/
def take (level : Nat) : Json.Reader Bindings
  | .openObject :: ts => Json.takeItems Json.Token.closesObject (takeEntry level) .empty ts
  | ts => .error (Json.misfit ts)

end Bindings

/-! ## 2. Flush requests -/

/-- A batch of a client. -/
structure FlushRequest where
  clientId : String
  retractions : List Sentence
  assertions : List Sentence
deriving DecidableEq, Repr

namespace FlushRequest

/-- The JSON form of a flush request. -/
def toJson (r : FlushRequest) : Json :=
  .object [("clientId", .string r.clientId), ("retractions", Sentence.listToJson r.retractions),
    ("assertions", Sentence.listToJson r.assertions)]

/-- The fields that have been read. -/
structure Draft where
  clientId : Option String := none
  retractions : Option (List Sentence) := none
  assertions : Option (List Sentence) := none

/-- How a flush request is read. Only the client must be named. -/
def format : Json.Format Draft FlushRequest where
  fields := [
    .of "clientId" Draft.clientId (fun d v => { d with clientId := v }) Json.takeString,
    .of "retractions" Draft.retractions (fun d v => { d with retractions := v })
      (Sentence.takeList 2),
    .of "assertions" Draft.assertions (fun d v => { d with assertions := v })
      (Sentence.takeList 2)]
  start := {}
  finish d := d.clientId.map fun clientId => ⟨clientId, d.retractions.getD [], d.assertions.getD []⟩

/-- Reads a flush request. -/
def take : Json.Reader FlushRequest := format.take

end FlushRequest

/-! ## 3. Answers -/

/-- The word that every answer of success carries. -/
def okStatus : String := "ok"

/-- The answer to a flush. -/
structure FlushResponse where
  status : String
  retracted : Nat
  asserted : Nat
deriving DecidableEq, Repr

namespace FlushResponse

/-- The JSON form of the answer to a flush. -/
def toJson (r : FlushResponse) : Json :=
  .object [("status", .string r.status), ("retracted", .ofNat r.retracted),
    ("asserted", .ofNat r.asserted)]

/-- The answer that reports an outcome. -/
def ofOutcome (o : FlushOutcome) : FlushResponse := ⟨okStatus, o.retracted, o.asserted⟩

/-- The outcome that an answer reports. -/
def outcome (r : FlushResponse) : FlushOutcome := ⟨r.retracted, r.asserted⟩

/-- The fields that have been read. -/
structure Draft where
  status : Option String := none
  retracted : Option Nat := none
  asserted : Option Nat := none

/-- How the answer to a flush is read. -/
def format : Json.Format Draft FlushResponse where
  fields := [
    .of "status" Draft.status (fun d v => { d with status := v }) Json.takeString,
    .of "retracted" Draft.retracted (fun d v => { d with retracted := v }) Json.takeNat,
    .of "asserted" Draft.asserted (fun d v => { d with asserted := v }) Json.takeNat]
  start := {}
  finish d := do return ⟨← d.status, ← d.retracted, ← d.asserted⟩

/-- Reads the answer to a flush. -/
def take : Json.Reader FlushResponse := format.take

end FlushResponse

/-- What a client asks to be forgotten: the facts about a name, or its own facts. -/
structure ForgetParams where
  clientId : String
  name : Option String
deriving DecidableEq, Repr

namespace ForgetParams

/-- The JSON form of what to forget. -/
def toJson (p : ForgetParams) : Json :=
  .object (("clientId", .string p.clientId) :: (p.name.map fun n => ("name", .string n)).toList)

/-- The fields that have been read; a name may be given as nothing. -/
structure Draft where
  clientId : Option String := none
  name : Option (Option String) := none

/-- How it is read what to forget. -/
def format : Json.Format Draft ForgetParams where
  fields := [
    .of "clientId" Draft.clientId (fun d v => { d with clientId := v }) Json.takeString,
    .of "name" Draft.name (fun d v => { d with name := v }) Json.takeString?]
  start := {}
  finish d := d.clientId.map fun clientId => ⟨clientId, d.name.join⟩

/-- Reads what to forget. -/
def take : Json.Reader ForgetParams := format.take

end ForgetParams

/-- The answer to a request to forget. -/
structure ForgetResponse where
  status : String
  retracted : Nat
deriving DecidableEq, Repr

namespace ForgetResponse

/-- The JSON form of the answer to a request to forget. -/
def toJson (r : ForgetResponse) : Json :=
  .object [("status", .string r.status), ("retracted", .ofNat r.retracted)]

/-- The fields that have been read. -/
structure Draft where
  status : Option String := none
  retracted : Option Nat := none

/-- How the answer to a request to forget is read. -/
def format : Json.Format Draft ForgetResponse where
  fields := [
    .of "status" Draft.status (fun d v => { d with status := v }) Json.takeString,
    .of "retracted" Draft.retracted (fun d v => { d with retracted := v }) Json.takeNat]
  start := {}
  finish d := do return ⟨← d.status, ← d.retracted⟩

/-- Reads the answer to a request to forget. -/
def take : Json.Reader ForgetResponse := format.take

end ForgetResponse

/-- The answer of failure. -/
structure ErrorResponse where
  status : String
  error : String
deriving DecidableEq, Repr

namespace ErrorResponse

/-- The JSON form of the answer of failure. -/
def toJson (r : ErrorResponse) : Json :=
  .object [("status", .string r.status), ("error", .string r.error)]

/-- The answer that reports a failure. -/
def ofFailure (f : Failure) : ErrorResponse := ⟨"error", f.message⟩

/-- The fields that have been read. -/
structure Draft where
  status : Option String := none
  error : Option String := none

/-- How the answer of failure is read. -/
def format : Json.Format Draft ErrorResponse where
  fields := [
    .of "status" Draft.status (fun d v => { d with status := v }) Json.takeString,
    .of "error" Draft.error (fun d v => { d with error := v }) Json.takeString]
  start := {}
  finish d := do return ⟨← d.status, ← d.error⟩

/-- Reads the answer of failure. -/
def take : Json.Reader ErrorResponse := format.take

end ErrorResponse

end Blackboard
