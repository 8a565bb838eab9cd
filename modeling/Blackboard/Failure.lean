import Blackboard.Text.Shown

/-!
# Failures

What can go wrong, by cause. `Failure.message` gives the wording and `Failure.isValidation` tells
the failures that the caller's data is to blame for from broken invariants and from failures of
the surroundings.
-/

namespace Blackboard

/-- Why a text is not what a grammar rule expects. -/
inductive ParseCause where
  /-- The text does not have the shape. -/
  | mismatch
  /-- The text has the shape, but this numeral in it is too large for a number. -/
  | outOfRange (numeral : String)
deriving DecidableEq, Repr

/-- An invariant that a caller went around. -/
inductive MatchFault where
  | holeInQuery
  | holeInPattern (sentence : String)
  | holeInRetraction (sentence : String)
  | variableInSolution (name : String)
  | wildcardInSolution
  | holeInSolution
  /-- A fact is gone although it was just stored. -/
  | vanished (key : String)
  /-- The bindings lead from this variable back to itself. -/
  | endlessChain (name : String)
deriving DecidableEq, Repr

namespace MatchFault

/-- The wording of a broken invariant. -/
def message : MatchFault → String
  | holeInQuery => "holes should never show up in a query pattern"
  | holeInPattern sentence => "holes should never show up in a pattern: " ++ sentence
  | holeInRetraction sentence => "holes should never show up in a retraction: " ++ sentence
  | variableInSolution name => "variable $" ++ name ++ " should never show up in a solution"
  | wildcardInSolution => "wildcards should never show up in a solution"
  | holeInSolution => "holes should never show up in a solution"
  | vanished key => "asserted fact " ++ key ++ " vanished"
  | endlessChain name => "variable $" ++ name ++ " is bound to itself"

end MatchFault

/-- Why settings are refused. -/
inductive ConfigCause where
  /-- The command line is not as the usage text says. -/
  | usage
  /-- A source of settings cannot be read, or a setting has a value of the wrong kind. -/
  | unreadable
deriving DecidableEq, Repr

/-- The usage text of the command line. -/
def usageText : String := "usage: roomdb [port]"

/-- Why a request came to nothing. -/
inductive TransportCause where
  /-- No answer came back. -/
  | lost
  /-- The answer cannot be decoded. -/
  | undecodable
  /-- The server answered with a status that means failure. -/
  | refused (status : String) (text : String)
deriving DecidableEq, Repr

/-- Everything that can go wrong. -/
inductive Failure where
  /-- A text does not fit the rule it is read with. -/
  | parse (rule input : String) (cause : ParseCause)
  /-- A template has another number of holes than it is given fillers. -/
  | arity (holes fillers : Nat)
  /-- A sentence to be asserted is not ground. -/
  | ungroundedAssert (sentence : String)
  /-- Cited sentences are not ground, or are not stored. -/
  | invalidEvidence (withVariables missing : List String)
  /-- A JSON value, given by its text, is not the wire form of a term. -/
  | unknownWireTerm (json : String)
  | duplicateClientId (id : String)
  | matchFault (fault : MatchFault)
  | config (cause : ConfigCause)
  | transport (cause : TransportCause)
deriving DecidableEq, Repr

namespace Failure

/-- The wording of a failure. -/
def message : Failure → String
  | parse rule input _ => "Parse error: invalid " ++ rule ++ ": " ++ input
  | arity holes fillers =>
    "Arity error: template has " ++ toString holes ++ " hole(s) but " ++ toString fillers
      ++ " filler value(s) were given"
  | ungroundedAssert sentence =>
    "Cannot assert a fact that has variables or wildcards: " ++ sentence
  | invalidEvidence withVariables missing =>
    "Invalid evidence: with variables " ++ shownTexts withVariables ++ ", not in the database "
      ++ shownTexts missing
  | unknownWireTerm json => "Unrecognized wire term: " ++ json
  | duplicateClientId id => "There is already a client whose id is " ++ id
  | matchFault fault => "Internal invariant violated: " ++ fault.message
  | config .usage => "Config error: " ++ usageText
  | config .unreadable => "Config error: the settings cannot be read"
  | transport .lost => "Transport error: no answer"
  | transport .undecodable => "Transport error: the answer cannot be decoded"
  | transport (.refused status text) => "Transport error: " ++ status ++ ": " ++ text

/-- Whether the data that a caller handed in is to blame. -/
def isValidation : Failure → Bool
  | parse .. | arity .. | ungroundedAssert _ | invalidEvidence .. | unknownWireTerm _
  | duplicateClientId _ => true
  | matchFault _ | config _ | transport _ => false

end Failure

end Blackboard
