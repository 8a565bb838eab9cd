import Blackboard.Client.Buffer
import Blackboard.Store.Query

/-!
# What clients do

An action of a client either concerns its buffer alone, or ends in one call on the store. Which of
the two it is, and which call, is the same for every kind of client (`MutationBuffer.plan`); the
kinds differ in how a call reaches the store. A flush that went through empties the buffer
(`MutationBuffer.settle`).
-/

namespace Blackboard

/-- An action of a client. -/
inductive Action where
  | assert (fact : Template)
  | retract (pattern : Template)
  | flush
  | assertNow (fact : Template)
  | retractNow (pattern : Template)
  | forgetAbout (name : String)
  | forgetMine
  | select (patterns : List Template)
  | listFacts
  | clearCache
deriving Repr

/-- What an action answers. -/
inductive Answer where
  | done
  | outcome (o : FlushOutcome)
  | count (n : Nat)
  | solutions (found : List Solution)
  | facts (texts : List String)
deriving Repr

/-- What a client asks of the store. -/
inductive Call where
  | apply (retractions assertions : List Sentence)
  | forgetAbout (name : String)
  | forgetMine
  | select (patterns : List Sentence)
  | listFacts
deriving Repr

/-- How an action goes on once the buffer has done its part. -/
inductive Plan where
  | answer (r : Except Failure Answer)
  | call (c : Call)

namespace MutationBuffer

/-- A flush: a call if anything waits. -/
def planFlush (b : MutationBuffer) : Plan :=
  if b.hasPending then .call (.apply b.retracts b.asserts) else .answer (.ok (.outcome ⟨0, 0⟩))

/-- A flush after something was let wait, if that did not fail. -/
def planNow : Except Failure Unit × MutationBuffer → Plan × MutationBuffer
  | (.ok (), b) => (b.planFlush, b)
  | (.error e, b) => (.answer (.error e), b)

/-- The part of the buffer in an action. -/
def plan (b : MutationBuffer) : Action → Plan × MutationBuffer
  | .assert t =>
    let (r, b) := b.pushAssert t
    (.answer (r.map fun _ => .done), b)
  | .retract t =>
    let (r, b) := b.pushRetract t
    (.answer (r.map fun _ => .done), b)
  | .flush => (b.planFlush, b)
  | .assertNow t => planNow (b.pushAssert t)
  | .retractNow t => planNow (b.pushRetract t)
  | .forgetAbout name => (.call (.forgetAbout name), b)
  | .forgetMine => (.call .forgetMine, b)
  | .select ts =>
    match b.materializePatterns ts with
    | (.ok ps, b) => (.call (.select ps), b)
    | (.error e, b) => (.answer (.error e), b)
  | .listFacts => (.call .listFacts, b)
  | .clearCache => (.answer (.ok .done), b.clearCache)

theorem plan_flush_of_pending {b : MutationBuffer} (h : b.hasPending = true) :
    b.plan .flush = (.call (.apply b.retracts b.asserts), b) := by
  rw [plan, planFlush, if_pos h]

theorem plan_flush_of_nothing {b : MutationBuffer} (h : b.hasPending = false) :
    b.plan .flush = (.answer (.ok (.outcome ⟨0, 0⟩)), b) := by
  rw [plan, planFlush, if_neg (by simp [h])]

/-- The buffer after a call was answered: a batch that went through no longer waits. -/
def settle (b : MutationBuffer) : Call → Except Failure Answer → MutationBuffer
  | .apply _ _, .ok _ => b.clear
  | _, _ => b

end MutationBuffer

/-- A call on the store in the name of a client. -/
def Store.answer (s : Store) (id : String) : Call → Except Failure Answer × Store
  | .apply retractions assertions =>
    let (r, s) := s.apply id retractions assertions
    (r.map .outcome, s)
  | .forgetAbout name =>
    let (n, s) := s.forgetAbout name
    (.ok (.count n), s)
  | .forgetMine =>
    let (n, s) := s.forgetBy id
    (.ok (.count n), s)
  | .select patterns => ((s.select patterns).map .solutions, s)
  | .listFacts => (.ok (.facts s.allFacts), s)

end Blackboard
