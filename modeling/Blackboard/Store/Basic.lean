import Blackboard.Store.Fact
import Blackboard.Match.Matching

/-!
# The fact store

The store keeps ground facts under their texts, in the order in which they came in. Every operation
that can change it answers with its result and with the store as it is afterwards; the store
afterwards is given for failures as well.

* Asserting a fact that is there already leaves it in its place, under a new asserter and without
  evidence.
* Retracting a sentence without variables and wildcards takes away the fact of that text; any other
  pattern takes away all facts that it matches.
* A batch is checked as a whole before anything changes; then its retractions come first.
-/

namespace Blackboard

/-- Facts by their texts. -/
structure Store where
  facts : OrderedMap String Fact
deriving Repr

/-- How many facts a batch took away and how many it asserted. -/
structure FlushOutcome where
  retracted : Nat
  asserted : Nat
deriving DecidableEq, Repr

namespace Store

/-- The store without facts. -/
def empty : Store := ⟨.empty⟩

instance : Inhabited Store := ⟨empty⟩

/-- The number of facts. -/
def size (s : Store) : Nat := s.facts.size

/-- The fact under a text. -/
def get? (s : Store) (key : String) : Option Fact := s.facts.get? key

/-- The texts of all facts, in order. -/
def allFacts (s : Store) : List String := s.facts.keys

/-- The store with another fact under its text. -/
def put (s : Store) (f : Fact) : Store := ⟨s.facts.insert f.key f⟩

/-! ## 1. Asserting -/

/-- Stores a ground sentence and answers with its text. -/
def assert (s : Store) (asserter : String) (terms : Sentence) : Except Failure String × Store :=
  if terms.isGround then
    let f : Fact := { terms, asserter }
    (.ok f.key, s.put f)
  else (.error (.ungroundedAssert terms.render), s)

/-- Replaces the evidence of a stored fact. What is cited must be ground and stored; if anything is
    not, nothing changes and all of it is reported. -/
def cite (s : Store) (key : String) (evidence : List Sentence) : Except Failure Fact × Store :=
  let withVariables := (evidence.filter fun e => !e.isGround).map Sentence.render
  let missing :=
    ((evidence.filter Sentence.isGround).map Sentence.render).filter fun k => !s.facts.contains k
  if withVariables.isEmpty && missing.isEmpty then
    let cited := evidence.filterMap fun e => s.get? e.render
    match s.get? key with
    | some f =>
      let f := f.citing cited
      (.ok f, ⟨s.facts.insert key f⟩)
    | none => (.error (.matchFault (.vanished key)), s)
  else (.error (.invalidEvidence withVariables missing), s)

/-- Stores a ground sentence and cites its evidence. A fact whose evidence is refused stays stored
    without evidence. -/
def assertCiting (s : Store) (asserter : String) (terms : Sentence) (evidence : List Sentence) :
    Except Failure Fact × Store :=
  match s.assert asserter terms with
  | (.ok key, s) => s.cite key evidence
  | (.error e, s) => (.error e, s)

/-! ## 2. Retracting -/

/-- Takes away the facts under the given texts and counts those that were there. -/
def removeAll (s : Store) : List String → Nat × Store
  | [] => (0, s)
  | k :: ks =>
    let (n, rest) := removeAll ⟨s.facts.erase k⟩ ks
    (if s.facts.contains k then n + 1 else n, rest)

/-- The texts of the entries whose facts a pattern matches. -/
def matching (pattern : Sentence) : List (String × Fact) → Except Failure (List String)
  | [] => .ok []
  | (k, f) :: rest => do
    let found ← matchSentence pattern f.terms .empty
    let ks ← matching pattern rest
    return if found.isSome then k :: ks else ks

/-- Takes away what a pattern stands for and counts it. -/
def retract (s : Store) (pattern : Sentence) : Except Failure Nat × Store :=
  if pattern.hasHoles then (.error (.matchFault (.holeInRetraction pattern.render)), s)
  else if pattern.isOpen then
    match matching pattern s.facts.entries with
    | .ok ks =>
      let (n, s) := s.removeAll ks
      (.ok n, s)
    | .error e => (.error e, s)
  else
    let (n, s) := s.removeAll [pattern.render]
    (.ok n, s)

/-- Takes away all facts for which a test holds and counts them. -/
def removeWhere (s : Store) (test : Fact → Bool) : Nat × Store :=
  s.removeAll ((s.facts.entries.filter fun e => test e.2).map Prod.fst)

/-- Takes away all facts that mention an identifier. -/
def forgetAbout (s : Store) (name : String) : Nat × Store :=
  s.removeWhere fun f => f.mentions name

/-- Takes away all facts of an asserter. -/
def forgetBy (s : Store) (asserter : String) : Nat × Store :=
  s.removeWhere fun f => f.asserter == asserter

/-! ## 3. Batches -/

/-- Retracts patterns one after another up to the first failure and adds up the counts. -/
def retractEach (s : Store) : List Sentence → Except Failure Nat × Store
  | [] => (.ok 0, s)
  | p :: ps =>
    match s.retract p with
    | (.ok n, s) =>
      match s.retractEach ps with
      | (.ok m, s) => (.ok (n + m), s)
      | failed => failed
    | failed => failed

/-- Asserts sentences one after another up to the first failure and counts them. -/
def assertEach (s : Store) (asserter : String) : List Sentence → Except Failure Nat × Store
  | [] => (.ok 0, s)
  | f :: fs =>
    match s.assert asserter f with
    | (.ok _, s) =>
      match s.assertEach asserter fs with
      | (.ok n, s) => (.ok (n + 1), s)
      | failed => failed
    | (.error e, s) => (.error e, s)

/-- Applies a batch: all retractions, then all assertions. -/
def apply (s : Store) (asserter : String) (retractions assertions : List Sentence) :
    Except Failure FlushOutcome × Store :=
  match retractions.find? Sentence.hasHoles with
  | some p => (.error (.matchFault (.holeInRetraction p.render)), s)
  | none =>
  match assertions.find? fun f => !f.isGround with
  | some f => (.error (.ungroundedAssert f.render), s)
  | none =>
  match s.retractEach retractions with
  | (.error e, s) => (.error e, s)
  | (.ok retracted, s) =>
  match s.assertEach asserter assertions with
  | (.error e, s) => (.error e, s)
  | (.ok asserted, s) => (.ok ⟨retracted, asserted⟩, s)

/-! ## 4. Listing -/

/-- One line for every fact. -/
def listing (s : Store) : String := String.intercalate "\n" (s.facts.values.map Fact.line)

end Store

end Blackboard
