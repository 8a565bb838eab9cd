import Blackboard.Sentence.Basic

/-!
# Facts

A fact is a sentence together with who asserted it and the facts that it cites as evidence. What is
cited is kept as it was at that moment, so evidence is a tree of facts.
-/

namespace Blackboard

/-- A sentence as it was asserted. -/
structure Fact where
  terms : Sentence
  asserter : String
  evidence : List Fact := []
deriving Repr

namespace Fact

instance : Inhabited Fact := ⟨⟨[], "", []⟩⟩

/-- The text that a fact is stored under. -/
def key (f : Fact) : String := f.terms.render

/-- The fact with other evidence. -/
def citing (f : Fact) (evidence : List Fact) : Fact := { f with evidence }

/-- Whether the fact names a thing by its identifier. -/
def mentions (f : Fact) (name : String) : Bool := f.terms.mentions name

mutual

/-- Equality of facts with all their evidence, numbers being compared as numbers. -/
def equal : Fact → Fact → Bool
  | ⟨s, a, es⟩, ⟨t, b, fs⟩ => Sentence.equal s t && a == b && equalAll es fs

/-- Equality of rows of facts. -/
def equalAll : List Fact → List Fact → Bool
  | [], [] => true
  | e :: es, f :: fs => equal e f && equalAll es fs
  | _, _ => false

end

/-- One line for a fact: who asserted it, and its text. -/
def line (f : Fact) : String := "<" ++ f.asserter ++ "> " ++ f.key

end Fact

end Blackboard
