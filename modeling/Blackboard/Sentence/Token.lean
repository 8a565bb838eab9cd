import Blackboard.Sentence.Basic
import Blackboard.Text.Blank
import Blackboard.Text.Letter
import Blackboard.Text.Pieces
import Blackboard.Failure

/-!
# Tokens of a sentence text

A token is a term as it is spelled; `Token.chars` gives the spelling back, character by character.

* `Token.markedAt?` reads the tokens that show what they are by how they begin: identifiers,
  variables, wildcards, holes, keywords, numerals, quoted strings and blanks.
* Everything else is a word. A word ends where a marked token begins, and nowhere else.
* `Token.firstAt?` is the token at the front of a text and `Token.ofText` are all tokens of a text.
-/

namespace Blackboard

/-- A keyword. -/
inductive Keyword where
  | true
  | false
  | null
deriving DecidableEq, Repr

namespace Keyword

/-- The spelling of a keyword. -/
def chars : Keyword → List Char
  | .true => ['t', 'r', 'u', 'e']
  | .false => ['f', 'a', 'l', 's', 'e']
  | .null => ['n', 'u', 'l', 'l']

/-- The literal that a keyword stands for. -/
def literal : Keyword → Literal
  | .true => .bool Bool.true
  | .false => .bool Bool.false
  | .null => .null

/-- Whether a text begins with the keyword and goes on with something that no name has. -/
def begins (k : Keyword) (cs : List Char) : Bool :=
  k.chars.isPrefixOf cs && !((cs.drop k.chars.length).head?.any isNameChar)

/-- The keyword at the front of a text. -/
def scan? (cs : List Char) : Option Keyword :=
  [Keyword.true, Keyword.false, Keyword.null].find? (·.begins cs)

end Keyword

/-- A piece of a text, spelled as it stands there. -/
inductive Token where
  | identifier (name : List Char)
  | keyword (k : Keyword)
  | numeral (n : Numeral)
  /-- A string by what stands between its quotes. -/
  | quoted (body : List Char)
  | variable (name : List Char)
  | wildcard
  | hole
  | space (blanks : List Char)
  | word (text : List Char)
deriving DecidableEq, Repr

namespace Token

/-- The spelling of a token. -/
def chars : Token → List Char
  | identifier name => '#' :: name
  | keyword k => k.chars
  | numeral n => n.chars
  | quoted body => '"' :: body ++ ['"']
  | .variable name => '$' :: name
  | wildcard => ['$']
  | hole => ['_']
  | space blanks => blanks
  | word text => text

/-! ## 1. The tokens at the front of a text -/

/-- An identifier: a number sign and a name, which may be empty. -/
def identifierAt? : List Char → Option Token
  | '#' :: cs => some (identifier (cs.takeWhile isNameChar))
  | _ => none

/-- A literal: a keyword, a numeral, or a string that is closed on its line. -/
def literalAt? : List Char → Option Token
  | '"' :: cs =>
    let body := cs.takeWhile fun c => c != '"' && c != '\n'
    if (cs.drop body.length).head? = some '"' then some (quoted body) else none
  | cs => (keyword <$> Keyword.scan? cs) <|> (numeral <$> Numeral.scan? cs)

/-- A variable: a dollar sign and a name. -/
def variableAt? : List Char → Option Token
  | '$' :: cs =>
    let name := cs.takeWhile isNameChar
    if name.isEmpty then none else some (.variable name)
  | _ => none

/-- A dollar sign. -/
def wildcardAt? : List Char → Option Token
  | '$' :: _ => some wildcard
  | _ => none

/-- An underscore. -/
def holeAt? : List Char → Option Token
  | '_' :: _ => some hole
  | _ => none

/-- A run of blanks. -/
def spaceAt? (cs : List Char) : Option Token :=
  let blanks := cs.takeWhile isBlank
  if blanks.isEmpty then none else some (space blanks)

/-- The token at the front of a text if it is not a word: the first of these that can be read. -/
def markedAt? (cs : List Char) : Option Token :=
  identifierAt? cs <|> literalAt? cs <|> variableAt? cs <|> wildcardAt? cs <|> holeAt? cs <|>
    spaceAt? cs

/-- The characters up to the next marked token. -/
def wordChars : List Char → List Char
  | [] => []
  | c :: cs => if (markedAt? (c :: cs)).isSome then [] else c :: wordChars cs

/-- A word: at least one character up to the next marked token. -/
def wordAt? (cs : List Char) : Option Token :=
  let text := wordChars cs
  if text.isEmpty then none else some (word text)

/-- The token at the front of a text. There is one unless the text is empty. -/
def firstAt? (cs : List Char) : Option Token := markedAt? cs <|> wordAt? cs

/-! ## 2. The tokens of a text -/

/-- The first token of a text that is not empty, and how many further characters it covers. -/
def next (c : Char) (cs : List Char) : Token × Nat :=
  let t := (firstAt? (c :: cs)).getD (word [c])
  (t, t.chars.length - 1)

/-- All tokens of a text. -/
def ofText (cs : List Char) : List Token := cut next cs

/-! ## 3. What a token stands for -/

/-- The term that a token spells, unless it is a numeral that is too large. -/
def term : Token → Except ParseCause Term
  | identifier name => .ok (.identifier (String.ofList name))
  | keyword k => .ok (.literal k.literal)
  | numeral n =>
    if n.value.isFinite then .ok (.number n.value)
    else .error (.outOfRange (String.ofList n.chars))
  | quoted body => .ok (.string (String.ofList (unescape body)))
  | .variable name => .ok (.variable (String.ofList name))
  | wildcard => .ok .wildcard
  | hole => .ok .hole
  | space _ => .ok (.word " ")
  | word text => .ok (.word (String.ofList text))

end Token

end Blackboard
