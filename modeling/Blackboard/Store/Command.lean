import Blackboard.Store.Basic

/-!
# Commands on a store

What can be done to a store, as data, so that a history is a list of commands.
-/

namespace Blackboard

/-- An operation that can change a store. -/
inductive Store.Command where
  | assert (asserter : String) (fact : Sentence)
  | assertCiting (asserter : String) (fact : Sentence) (evidence : List Sentence)
  | retract (pattern : Sentence)
  | forgetAbout (name : String)
  | forgetBy (asserter : String)
  | apply (asserter : String) (retractions assertions : List Sentence)
deriving Repr

/-- What a command reports. -/
inductive Store.Report where
  | key (text : String)
  | fact (f : Fact)
  | count (n : Nat)
  | outcome (o : FlushOutcome)
deriving Repr

namespace Store

/-- Carries out a command. -/
def perform (s : Store) : Command → Except Failure Report × Store
  | .assert asserter fact =>
    let (r, s) := s.assert asserter fact
    (r.map .key, s)
  | .assertCiting asserter fact evidence =>
    let (r, s) := s.assertCiting asserter fact evidence
    (r.map .fact, s)
  | .retract pattern =>
    let (r, s) := s.retract pattern
    (r.map .count, s)
  | .forgetAbout name =>
    let (n, s) := s.forgetAbout name
    (.ok (.count n), s)
  | .forgetBy asserter =>
    let (n, s) := s.forgetBy asserter
    (.ok (.count n), s)
  | .apply asserter retractions assertions =>
    let (r, s) := s.apply asserter retractions assertions
    (r.map .outcome, s)

/-- The store after a history. -/
def after (s : Store) (history : List Command) : Store :=
  history.foldl (fun s c => (s.perform c).2) s

end Store

end Blackboard
