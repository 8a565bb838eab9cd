import Blackboard.Match.Env
import Blackboard.Sentence.Basic
import Blackboard.Failure

/-!
# Matching

A pattern is matched against a fact term by term, from left to right, under an environment. A
wildcard matches every term. A variable that is not bound matches every term and is bound to it; a
bound one stands for the term it is bound to. All other terms match what is equal to them. A hole on
either side is a fault: holes are filled before a sentence is used.

A bound term may itself be a variable. Going from variable to variable ends after at most as many
steps as there are frames, unless the bindings lead back to where they came from; that is a fault
too.
-/

namespace Blackboard

/-- What matching answers: the extended environment, nothing if there is no match, or a fault. -/
abbrev Matched := Except Failure (Option Env)

/-- Matches a term against a term, going through at most `steps` bound variables. -/
def matchTermWithin : Nat → Term → Term → Env → Matched
  | steps, pattern, fact, env =>
    match pattern, fact with
    | .hole, _ | _, .hole => .error (.matchFault .holeInQuery)
    | .wildcard, _ => .ok (some env)
    | .variable name, fact =>
      match env.lookup name, steps with
      | none, _ => .ok (some (env.bind name fact))
      | some bound, steps + 1 => matchTermWithin steps bound fact env
      | some _, 0 => .error (.matchFault (.endlessChain name))
    | pattern, fact => .ok (if pattern.equal fact then some env else none)

/-- Matches a term of a pattern against a term of a fact. -/
def matchTerm (pattern fact : Term) (env : Env) : Matched :=
  matchTermWithin env.size pattern fact env

/-- Matches the terms of two rows of the same length one after another. -/
def matchAll : Sentence → Sentence → Env → Matched
  | p :: ps, f :: fs, env =>
    match matchTerm p f env with
    | .ok (some env) => matchAll ps fs env
    | failed => failed
  | _, _, env => .ok (some env)

/-- Matches a pattern against a fact. Sentences of different lengths never match. -/
def matchSentence (pattern fact : Sentence) (env : Env) : Matched :=
  if pattern.length = fact.length then matchAll pattern fact env else .ok none

end Blackboard
