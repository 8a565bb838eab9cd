import Blackboard.Store.Basic
import Blackboard.Store.Solution

/-!
# Queries

A query is a list of patterns that are joined: the first pattern is tried on every fact in store
order, and for each fact that it matches the remaining patterns are solved under the extended
environment. Solutions come in the order in which they are found.
-/

namespace Blackboard.Store

/-- The environments under which all patterns match facts of a list. -/
def solve (facts : List Fact) : List Sentence → Env → Except Failure (List Env)
  | [], env => .ok [env]
  | p :: ps, env => do
    let found ← facts.mapM fun f => do
      match ← matchSentence p f.terms env with
      | some env => solve facts ps env
      | none => return []
    return found.flatten

/-- The solutions of a query as bound terms. -/
def selectBindings (s : Store) (patterns : List Sentence) : Except Failure (List Bindings) := do
  return (← solve s.facts.values patterns .empty).map Env.bindings

/-- The solutions of a query. -/
def select (s : Store) (patterns : List Sentence) : Except Failure (List Solution) := do
  (← s.selectBindings patterns).mapM Solution.ofBindings

end Blackboard.Store
