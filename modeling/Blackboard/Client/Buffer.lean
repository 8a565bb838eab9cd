import Blackboard.Sentence.Template

/-!
# Mutation buffers

A client does not change the store at once: what it asserts and retracts is read and checked, and
then waits in its buffer for the next flush. Only ground sentences wait to be asserted, and no
sentence with a hole waits to be retracted.

Reading goes through the parse cache of the buffer, so the buffer changes also when it refuses.
-/

namespace Blackboard

/-- What waits for the next flush, and the cache that texts are read through. -/
structure MutationBuffer where
  cache : ParseCache
  asserts : List Sentence := []
  retracts : List Sentence := []
deriving Repr

namespace MutationBuffer

/-- A buffer with an empty cache in which nothing waits. -/
def empty (cacheCapacity : Nat) : MutationBuffer := { cache := .empty cacheCapacity }

/-- Whether anything waits. -/
def hasPending (b : MutationBuffer) : Bool := !b.asserts.isEmpty || !b.retracts.isEmpty

/-- The buffer after a flush went through. -/
def clear (b : MutationBuffer) : MutationBuffer := { b with asserts := [], retracts := [] }

/-- The buffer with a cache that has forgotten everything. -/
def clearCache (b : MutationBuffer) : MutationBuffer := { b with cache := b.cache.clear }

/-- Reads and fills a template. -/
def materialize (b : MutationBuffer) (t : Template) : Except Failure Sentence × MutationBuffer :=
  let (r, cache) := t.materialize b.cache
  (r, { b with cache })

/-- A sentence that can be used as a pattern: it has no holes. -/
def checkPattern (s : Sentence) : Except Failure Sentence :=
  if s.hasHoles then .error (.matchFault (.holeInPattern s.render)) else .ok s

/-- A sentence that can be asserted: it is ground. -/
def checkFact (s : Sentence) : Except Failure Sentence :=
  if s.isGround then .ok s else .error (.ungroundedAssert s.render)

/-- Reads and fills a template of a pattern. -/
def materializePattern (b : MutationBuffer) (t : Template) :
    Except Failure Sentence × MutationBuffer :=
  let (r, b) := b.materialize t
  (r.bind checkPattern, b)

/-- Reads templates one after another up to the first failure. -/
def materializeWith (read : MutationBuffer → Template → Except Failure Sentence × MutationBuffer)
    (b : MutationBuffer) : List Template → Except Failure (List Sentence) × MutationBuffer
  | [] => (.ok [], b)
  | t :: ts =>
    match read b t with
    | (.error e, b) => (.error e, b)
    | (.ok s, b) =>
      let (r, b) := materializeWith read b ts
      (r.map (s :: ·), b)

/-- Reads and fills templates. -/
def materializeAll (b : MutationBuffer) (ts : List Template) :
    Except Failure (List Sentence) × MutationBuffer :=
  b.materializeWith materialize ts

/-- Reads and fills templates of patterns. -/
def materializePatterns (b : MutationBuffer) (ts : List Template) :
    Except Failure (List Sentence) × MutationBuffer :=
  b.materializeWith materializePattern ts

/-- Lets a sentence wait to be asserted. -/
def pushAssert (b : MutationBuffer) (t : Template) : Except Failure Unit × MutationBuffer :=
  let (r, b) := b.materialize t
  match r.bind checkFact with
  | .ok s => (.ok (), { b with asserts := b.asserts ++ [s] })
  | .error e => (.error e, b)

/-- Lets a pattern wait to be retracted. -/
def pushRetract (b : MutationBuffer) (t : Template) : Except Failure Unit × MutationBuffer :=
  match b.materializePattern t with
  | (.ok s, b) => (.ok (), { b with retracts := b.retracts ++ [s] })
  | (.error e, b) => (.error e, b)

end MutationBuffer

end Blackboard
