import Blackboard.Client.Action

/-!
# Local clients

A local client works on the store itself.
-/

namespace Blackboard

/-- A client next to the store. -/
structure LocalClient where
  id : String
  buffer : MutationBuffer
deriving Repr

namespace LocalClient

/-- A client under an id, with an empty buffer. -/
def new (id : String) (cacheCapacity : Nat) : LocalClient := ⟨id, .empty cacheCapacity⟩

/-- Carries out an action. -/
def perform (c : LocalClient) (s : Store) (a : Action) :
    Except Failure Answer × LocalClient × Store :=
  match c.buffer.plan a with
  | (.answer r, buffer) => (r, { c with buffer }, s)
  | (.call call, buffer) =>
    let (r, s) := s.answer c.id call
    (r, { c with buffer := buffer.settle call r }, s)

/-- Asserts a fact past the buffer and cites its evidence. -/
def assertCiting (c : LocalClient) (s : Store) (fact : Template) (evidence : List Template) :
    Except Failure Fact × LocalClient × Store :=
  match c.buffer.materialize fact with
  | (.error e, buffer) => (.error e, { c with buffer }, s)
  | (.ok fact, buffer) =>
  match buffer.materializeAll evidence with
  | (.error e, buffer) => (.error e, { c with buffer }, s)
  | (.ok evidence, buffer) =>
    let (r, s) := s.assertCiting c.id fact evidence
    (r, { c with buffer }, s)

/-- How a client is shown. -/
def shown (c : LocalClient) : String := "[LocalClient " ++ c.id ++ "]"

end LocalClient

end Blackboard
