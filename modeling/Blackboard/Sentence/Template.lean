import Blackboard.Sentence.Parse
import Blackboard.OrderedMap

/-!
# Templates and the parse cache

A template is a text with the terms for its holes. To materialize it is to read its text, through a
cache, and to fill its holes from left to right; there must be as many fillers as holes.

The cache keeps what texts were read as. A failed reading is not kept. When the cache has grown past
its capacity, the next text that is not in it empties it first, whether that text can be read or
not.
-/

namespace Blackboard

/-! ## 1. The cache -/

/-- What texts were read as, the latest first. -/
structure ParseCache where
  capacity : Nat
  kept : List (String × Sentence)
deriving Repr

/-- The capacity of a cache unless another one is asked for. -/
def defaultCacheCapacity : Nat := 1000

namespace ParseCache

/-- An empty cache. -/
def empty (capacity : Nat) : ParseCache := ⟨capacity, []⟩

/-- The number of texts that are kept. -/
def size (c : ParseCache) : Nat := c.kept.length

/-- Forgets everything. -/
def clear (c : ParseCache) : ParseCache := { c with kept := [] }

/-- Makes room for another text: past the capacity, everything is forgotten. -/
def makeRoom (c : ParseCache) : ParseCache := if c.capacity < c.size then c.clear else c

/-- Reads a text, from memory if it is kept there. -/
def parse (c : ParseCache) (text : String) : Except Failure Sentence × ParseCache :=
  match lookupEntry text c.kept with
  | some s => (.ok s, c)
  | none =>
    let c := c.makeRoom
    match Sentence.parse text with
    | .ok s => (.ok s, { c with kept := (text, s) :: c.kept })
    | .error e => (.error e, c)

end ParseCache

/-! ## 2. Templates -/

/-- A text and the terms for its holes. -/
structure Template where
  text : String
  fillers : List Term := []
deriving DecidableEq, Repr

namespace Template

/-- Reads the text and fills the holes. -/
def materialize (t : Template) (c : ParseCache) : Except Failure Sentence × ParseCache :=
  match c.parse t.text with
  | (.error e, c) => (.error e, c)
  | (.ok s, c) =>
    if s.holeCount = t.fillers.length then (.ok (s.fill t.fillers), c)
    else (.error (.arity s.holeCount t.fillers.length), c)

end Template

end Blackboard
