import Blackboard.Client.Action
import Blackboard.Http.Server
import Blackboard.Http.Status

/-!
# Remote clients

A remote client buffers like a local one, but a call on the store becomes a request to a server, of
which an answer may or may not come back. A batch waits in the buffer until a server has confirmed
it.

How requests travel is left open: `RemoteClient.perform` takes any way of sending a request that
leads from one state of the surroundings to the next.
-/

namespace Blackboard

/-- What comes back for a request. -/
inductive Reply where
  /-- Nothing: the request or its answer is lost. -/
  | lost
  | answered (status : Nat) (body : Payload)
deriving Repr

/-- A client that reaches the store over the network. -/
structure RemoteClient where
  host : String
  port : Nat
  id : String
  buffer : MutationBuffer
deriving Repr

namespace RemoteClient

/-- A client under an id, with an empty buffer. -/
def new (host : String) (port : Nat) (id : String) (cacheCapacity : Nat) : RemoteClient :=
  ⟨host, port, id, .empty cacheCapacity⟩

/-- The address that all requests begin with. -/
def baseUrl (c : RemoteClient) : String := "http://" ++ c.host ++ ":" ++ toString c.port

/-- How a client is shown. -/
def shown (c : RemoteClient) : String := "[RemoteClient " ++ c.baseUrl ++ ", " ++ c.id ++ "]"

/-! ## 1. Calls as requests -/

/-- The request that a call becomes. -/
def request (id : String) : Call → Server.Request
  | .apply retractions assertions =>
    .flush (.ofJson (FlushRequest.mk id retractions assertions).toJson)
  | .forgetAbout name => .forget ⟨id, some name⟩
  | .forgetMine => .forget ⟨id, none⟩
  | .select patterns => .select (.ofJson (Sentence.listToJson patterns))
  | .listFacts => .listFacts

/-- What an answer that reports failure says: the text of the failure if the server gives one, and
    otherwise the whole body. -/
def failureText (body : Payload) : String :=
  match ErrorResponse.take.whole body.tokens with
  | .ok r => r.error
  | .error _ => body.text

/-- Reads the body of an answer of success. -/
def readBody {α : Type} (take : Json.Reader α) : Reply → Except Failure α
  | .lost => .error (.transport .lost)
  | .answered status body =>
    if Http.isSuccess status then
      match take.whole body.tokens with
      | .ok a => .ok a
      | .error _ => .error (.transport .undecodable)
    else .error (.transport (.refused (Http.statusText status) (failureText body)))

/-- Reads what a reply answers to a call. -/
def readReply (reply : Reply) : Call → Except Failure Answer
  | .apply _ _ => (readBody FlushResponse.take reply).map fun r => .outcome r.outcome
  | .forgetAbout _ | .forgetMine =>
    (readBody ForgetResponse.take reply).map fun r => .count r.retracted
  | .select _ => do
    let found ← readBody (Json.takeArray (Bindings.take 2)) reply
    return .solutions (← found.mapM Solution.ofBindings)
  | .listFacts => (readBody (Json.takeArray Json.takeString) reply).map .facts

/-! ## 2. Actions -/

/-- Carries out an action, with a way of sending requests through surroundings `σ`. -/
def perform {σ : Type} (send : Server.Request → σ → Reply × σ) (c : RemoteClient) (w : σ)
    (a : Action) : Except Failure Answer × RemoteClient × σ :=
  match c.buffer.plan a with
  | (.answer r, buffer) => (r, { c with buffer }, w)
  | (.call call, buffer) =>
    let (reply, w) := send (request c.id call) w
    let r := readReply reply call
    (r, { c with buffer := buffer.settle call r }, w)

section Perform

variable {σ : Type} {send : Server.Request → σ → Reply × σ} {c : RemoteClient} {w : σ}

/-- What the buffer answers by itself sends nothing. -/
theorem perform_of_answer {a : Action} {r : Except Failure Answer} {b : MutationBuffer}
    (h : c.buffer.plan a = (.answer r, b)) :
    c.perform send w a = (r, { c with buffer := b }, w) := by
  rw [perform, h]

/-- A call sends its request, and the reply settles the buffer. -/
theorem perform_of_call {a : Action} {call : Call} {b : MutationBuffer} {reply : Reply} {w' : σ}
    (h : c.buffer.plan a = (.call call, b)) (hsend : send (request c.id call) w = (reply, w')) :
    c.perform send w a =
      (readReply reply call, { c with buffer := b.settle call (readReply reply call) }, w') := by
  rw [perform, h]
  dsimp only
  rw [hsend]

end Perform

end RemoteClient

/-- Sending over a network that delivers: the server answers from the store. -/
def Server.deliver (r : Server.Request) (s : Store) : Reply × Store :=
  let (response, s) := Server.answer s r
  (.answered response.status ((response.json.map Payload.ofJson).getD (.ofText "")), s)

/-- Sending over a network that loses everything. -/
def Server.lose {σ : Type} (_ : Server.Request) (w : σ) : Reply × σ := (.lost, w)

end Blackboard
