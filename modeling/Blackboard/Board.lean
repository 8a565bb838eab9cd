import Blackboard.Client.Local
import Blackboard.Client.Remote
import Blackboard.Http.Exchange
import Blackboard.Registry

/-!
# The board

A board is a store with the clients that work on it. Clients are called by handles, which are not
their ids: an id is what facts are asserted under and is registered for clients next to the store
only, while a handle stands for a buffer.

What clients do one after another interleaves here (`Board.act`). How the requests of far clients
travel is given by a link from one state of the store to the next.
-/

namespace Blackboard

/-- A client, next to the store or over the network. -/
inductive Client where
  | near (c : LocalClient)
  | far (c : RemoteClient)
deriving Repr

namespace Client

/-- The id that a client asserts under. -/
def id : Client → String
  | near c => c.id
  | far c => c.id

/-- What waits for the next flush of a client. -/
def buffer : Client → MutationBuffer
  | near c => c.buffer
  | far c => c.buffer

end Client

/-- A way of sending requests to the server of a store. -/
abbrev Link := Server.Request → Store → Reply × Store

/-- A store, the ids that are connected, and the clients by their handles. -/
structure Board where
  store : Store
  registry : Registry
  /-- The capacity of the parse caches of clients that connect here. -/
  cacheCapacity : Nat
  clients : OrderedMap String Client
deriving Repr

namespace Board

/-- A board with an empty store and no clients. -/
def empty (cacheCapacity : Nat) : Board := ⟨.empty, .empty, cacheCapacity, .empty⟩

/-- The client of a handle. -/
def client? (b : Board) (handle : String) : Option Client := b.clients.get? handle

/-! ## 1. Coming and going -/

/-- Connects a client next to the store and answers with its id. If the id is taken, the handle
    keeps what it stood for. -/
def connect (b : Board) (handle : String) (id : Option String) : Except Failure String × Board :=
  match b.registry.connect id with
  | (.error e, registry) => (.error e, { b with registry })
  | (.ok id, registry) =>
    (.ok id,
      { b with registry, clients := b.clients.insert handle (.near (.new id b.cacheCapacity)) })

/-- Gives a handle to a client over the network. Its id is not registered. -/
def join (b : Board) (handle : String) (c : RemoteClient) : Board :=
  { b with clients := b.clients.insert handle (.far c) }

/-- Frees an id; the answer is whether it was connected. -/
def disconnect (b : Board) (id : String) : Bool × Board :=
  let (was, registry) := b.registry.disconnect id
  (was, { b with registry })

/-- Lets go of a handle. The id of a client next to the store is freed, and the answer is whether
    it was connected; for all others there is none. -/
def leave (b : Board) (handle : String) : Option Bool × Board :=
  let gone := { b with clients := b.clients.erase handle }
  match b.client? handle with
  | some (.near c) =>
    let (was, gone) := gone.disconnect c.id
    (some was, gone)
  | _ => (none, gone)

/-! ## 2. Working -/

/-- Works on the store itself. -/
def onStore {α : Type} (work : Store → α × Store) (b : Board) : α × Board :=
  let (a, store) := work b.store
  (a, { b with store })

/-- Puts the new state of a client under its handle. -/
def update (b : Board) (handle : String) (c : Client) (store : Store) : Board :=
  { b with store, clients := b.clients.insert handle c }

/-- Lets the client of a handle carry out an action, if there is one. -/
def act (link : Link) (b : Board) (handle : String) (a : Action) :
    Option (Except Failure Answer) × Board :=
  match b.client? handle with
  | some (.near c) =>
    let (r, c, store) := c.perform b.store a
    (some r, b.update handle (.near c) store)
  | some (.far c) =>
    let (r, c, store) := c.perform link b.store a
    (some r, b.update handle (.far c) store)
  | none => (none, b)

/-- Lets the client of a handle assert a fact and cite its evidence, if it is next to the store. -/
def assertCiting (b : Board) (handle : String) (fact : Template) (evidence : List Template) :
    Option (Except Failure Fact) × Board :=
  match b.client? handle with
  | some (.near c) =>
    let (r, c, store) := c.assertCiting b.store fact evidence
    (some r, b.update handle (.near c) store)
  | _ => (none, b)

/-- Answers a message that comes in over HTTP. -/
def serve (b : Board) (m : Http.Message) : Http.Answer × Board := b.onStore fun s => Http.serve s m

end Board

end Blackboard
