import Blackboard.Term.Basic

/-!
# Sentences

A sentence is a row of terms: a fact if it is ground, a pattern or a template otherwise. Its text is
the texts of its terms one after another; stored facts are known by it.
-/

namespace Blackboard

/-- A row of terms. -/
abbrev Sentence := List Term

namespace Sentence

/-- The text of a sentence. -/
def chars (s : Sentence) : List Char := s.flatMap Term.chars

/-- The text of a sentence as a string. -/
def render (s : Sentence) : String := String.ofList (chars s)

/-- Whether every term can stand in a stored fact. -/
def isGround (s : Sentence) : Bool := s.all Term.isGround

/-- Whether the sentence still has holes. -/
def hasHoles (s : Sentence) : Bool := s.any Term.isHole

/-- Whether the sentence has variables or wildcards. -/
def isOpen (s : Sentence) : Bool := s.any Term.isOpen

/-- The number of holes. -/
def holeCount (s : Sentence) : Nat := s.countP Term.isHole

/-- Equality term by term, numbers being compared as numbers. -/
def equal : Sentence → Sentence → Bool
  | [], [] => true
  | a :: s, b :: t => a.equal b && equal s t
  | _, _ => false

/-- Whether the sentence names a thing by its identifier. -/
def mentions (s : Sentence) (name : String) : Bool := s.any (· == .identifier name)

/-- Puts the fillers into the holes, from left to right. Holes for which there is no filler stay. -/
def fill : Sentence → List Term → Sentence
  | [], _ => []
  | .hole :: s, f :: fs => f :: fill s fs
  | t :: s, fs => t :: fill s fs

end Sentence

end Blackboard
