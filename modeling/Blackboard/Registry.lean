import Blackboard.Failure

/-!
# The registry of clients

Every connected client has an id of its own. A client may ask for an id, which fails if the id is
connected; otherwise an id is generated from a number that never goes back, so that no generated id
is given out twice.
-/

namespace Blackboard

/-- The ids that are connected, and the number that the next generated id is tried with. -/
structure Registry where
  connected : List String
  nextNumber : Nat
deriving DecidableEq, Repr

namespace Registry

/-- The registry in which nobody is connected. -/
def empty : Registry := ⟨[], 1⟩

/-- The id that is generated from a number. -/
def generatedId (n : Nat) : String := "_" ++ toString n

/-- The number of the first generated id that is not connected. One of the next numbers will do,
    one more of them than there are connected ids. -/
def freshNumber (r : Registry) : Nat :=
  let candidates := (List.range (r.connected.length + 1)).map (r.nextNumber + ·)
  (candidates.find? fun n => !r.connected.contains (generatedId n)).getD r.nextNumber

/-- Connects a client under the id it asks for, or under a generated one. -/
def connect (r : Registry) : Option String → Except Failure String × Registry
  | some id =>
    if r.connected.contains id then (.error (.duplicateClientId id), r)
    else (.ok id, { r with connected := id :: r.connected })
  | none =>
    let n := r.freshNumber
    (.ok (generatedId n), ⟨generatedId n :: r.connected, n + 1⟩)

/-- Frees an id; the answer is whether it was connected. -/
def disconnect (r : Registry) (id : String) : Bool × Registry :=
  (r.connected.contains id, { r with connected := r.connected.erase id })

end Registry

end Blackboard
