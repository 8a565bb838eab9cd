import Blackboard.Sentence.Token

/-!
# Reading sentences

A text is read without the blanks around it. `EntryRule` says what it is expected to be: any row of
tokens, a single token, or a single identifier.

A text that does not fit the rule is refused as a whole; otherwise the first numeral that is too
large is what is wrong with it.
-/

namespace Blackboard

/-- What a text is read as. -/
inductive EntryRule where
  | factOrPattern
  | singleTerm
  | identifierOnly
deriving DecidableEq, Repr

namespace EntryRule

/-- The name of a rule in messages. -/
def name : EntryRule → String
  | factOrPattern => "fact_or_pattern"
  | singleTerm => "single_term"
  | identifierOnly => "identifier_only"

/-- The token that covers the whole text, if the reader gives one that does. -/
def covering (token? : List Char → Option Token) (cs : List Char) :
    Except ParseCause (List Token) :=
  match token? cs with
  | some t => if t.chars.length = cs.length then .ok [t] else .error .mismatch
  | none => .error .mismatch

/-- The tokens of a text that fits the rule. -/
def tokens : EntryRule → List Char → Except ParseCause (List Token)
  | factOrPattern, cs => .ok (Token.ofText cs)
  | singleTerm, cs => covering Token.firstAt? cs
  | identifierOnly, cs => covering Token.identifierAt? cs

end EntryRule

namespace Sentence

/-- The sentence that a text spells under a rule. -/
def parseChars (rule : EntryRule) (cs : List Char) : Except ParseCause Sentence := do
  let tokens ← rule.tokens (trimBlanks cs)
  tokens.mapM Token.term

/-- Reads a text under a rule. -/
def parseAs (rule : EntryRule) (text : String) : Except Failure Sentence :=
  (parseChars rule text.toList).mapError (.parse rule.name text)

/-- Reads a fact or pattern. -/
def parse (text : String) : Except Failure Sentence := parseAs .factOrPattern text

end Sentence

end Blackboard
