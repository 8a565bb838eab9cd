import Blackboard.Match.Env
import Blackboard.Failure

/-!
# Solutions

A solution tells, for every variable of a query, the value it stands for. Values are what callers
see: a term without the kinds that never belong in an answer.
-/

namespace Blackboard

/-! ## 1. Values -/

/-- What a variable stands for in an answer. -/
inductive Value where
  | identifier (name : String)
  | word (text : String)
  | literal (value : Literal)
  | blobRef (id : String)
deriving DecidableEq, Repr

namespace Value

/-- The term that a value is. -/
def toTerm : Value → Term
  | identifier name => .identifier name
  | word text => .word text
  | literal value => .literal value
  | blobRef id => .blobRef id

/-- The value of a term. Variables, wildcards and holes have none. -/
def ofTerm : Term → Except Failure Value
  | .identifier name => .ok (identifier name)
  | .word text => .ok (word text)
  | .literal value => .ok (literal value)
  | .blobRef id => .ok (blobRef id)
  | .variable name => .error (.matchFault (.variableInSolution name))
  | .wildcard => .error (.matchFault .wildcardInSolution)
  | .hole => .error (.matchFault .holeInSolution)

/-- The text of a value. -/
def text (v : Value) : String := v.toTerm.text

/-- The literal that a value is, if it is one. -/
def asLiteral? : Value → Option Literal
  | literal value => some value
  | _ => none

/-- Whether a value is a number that equals the given one. -/
def isNumber (v : Value) (x : Binary64) : Bool :=
  (v.asLiteral?.bind Literal.asNumber?).any (·.equal x)

end Value

/-! ## 2. Solutions -/

/-- The variables of an answer with their values, in the order in which they were bound. -/
abbrev Solution := OrderedMap String Value

namespace Solution

/-- The values of bindings in their order; the first term without a value is a failure. -/
def ofEntries : List (String × Term) → Except Failure (List (String × Value))
  | [] => .ok []
  | (name, t) :: rest => do
    let v ← Value.ofTerm t
    let vs ← ofEntries rest
    return (name, v) :: vs

/-- The solution that bindings are. -/
def ofBindings (b : Bindings) : Except Failure Solution := do
  return ⟨← ofEntries b.entries⟩

end Solution

end Blackboard
