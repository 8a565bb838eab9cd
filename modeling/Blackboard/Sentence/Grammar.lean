import Blackboard.Sentence.Token

/-!
# The grammar of sentence texts

What the tokens of a text are, by rules. A rule is a parsing expression: it takes a beginning of a
text or fails. Of alternatives the first one that goes through counts, a repetition goes on for as
long as it can, and a rule that must be absent takes nothing.

* `Peg.Leaves` says what an expression leaves of a text, or that it fails there.
* `Token.Kind.rule` are the rules of the tokens. Every kind but a word shows by how it begins
  (`Grammar.special`), and a word goes on for as long as nothing else begins.
* `Grammar.Cuts` cuts a text into tokens, each by the first rule that goes through, until none does.

The readers of `Sentence/Token` do not use the rules.
-/

namespace Blackboard

/-! ## 1. Parsing expressions -/

/-- A parsing expression. -/
inductive Peg where
  | nothing
  /-- A character of a kind. -/
  | one (p : Char → Bool)
  | seq (a b : Peg)
  /-- The second expression where the first one fails. -/
  | orElse (a b : Peg)
  /-- An expression as often as it goes through. -/
  | many (a : Peg)
  /-- Nothing, where an expression fails. -/
  | absent (a : Peg)

namespace Peg

/-- What an expression leaves of a text: what stands behind the beginning that it takes, or nothing
    at all where it fails. -/
inductive Leaves : Peg → List Char → Option (List Char) → Prop where
  | nothing (text : List Char) : Leaves nothing text (some text)
  | one {p : Char → Bool} {c : Char} (cs : List Char) (h : p c = true) :
    Leaves (one p) (c :: cs) (some cs)
  | one_fails {p : Char → Bool} {text : List Char} (h : ¬text.head?.any p = true) :
    Leaves (one p) text none
  | seq {a b : Peg} {text rest : List Char} {r : Option (List Char)}
    (ha : Leaves a text (some rest)) (hb : Leaves b rest r) : Leaves (seq a b) text r
  | seq_fails {a b : Peg} {text : List Char} (ha : Leaves a text none) : Leaves (seq a b) text none
  | first {a b : Peg} {text rest : List Char} (ha : Leaves a text (some rest)) :
    Leaves (orElse a b) text (some rest)
  | second {a b : Peg} {text : List Char} {r : Option (List Char)} (ha : Leaves a text none)
    (hb : Leaves b text r) : Leaves (orElse a b) text r
  | done {a : Peg} {text : List Char} (ha : Leaves a text none) : Leaves (many a) text (some text)
  | more {a : Peg} {text rest : List Char} {r : Option (List Char)}
    (ha : Leaves a text (some rest)) (hmore : Leaves (many a) rest r) : Leaves (many a) text r
  | absent {a : Peg} {text : List Char} (ha : Leaves a text none) :
    Leaves (absent a) text (some text)
  | present {a : Peg} {text rest : List Char} (ha : Leaves a text (some rest)) :
    Leaves (absent a) text none

/-- A given character. -/
def char (c : Char) : Peg := one (· == c)

/-- Any character. -/
def any : Peg := one fun _ => true

/-- Given characters, one after another. -/
def literal (cs : List Char) : Peg := cs.foldr (fun c rest => seq (char c) rest) nothing

/-- An expression once or more often. -/
def plus (a : Peg) : Peg := seq a (many a)

/-- An expression, or nothing where it fails. -/
def optional (a : Peg) : Peg := orElse a nothing

/-- The first of the expressions that goes through. -/
def firstOf (as : List Peg) : Peg := as.foldr orElse (absent nothing)

end Peg

/-! ## 2. The rules -/

namespace Grammar

open Peg

/-- A letter or a digit of a name. -/
def nameChar : Peg := one isNameChar

/-- A number sign and a name, which may be empty. -/
def identifier : Peg := seq (char '#') (many nameChar)

/-- A keyword that does not go on as a name would. -/
def keyword (k : Keyword) : Peg := seq (literal k.chars) (absent nameChar)

/-- A plus or minus sign. -/
def sign : Peg := orElse (char '+') (char '-')

/-- Decimal digits. -/
def digits : Peg := plus (one Char.isDigit)

/-- A point and digits. -/
def fraction : Peg := seq (char '.') digits

/-- An exponent mark in either case, an optional sign and digits. -/
def exponent : Peg := seq (orElse (char 'e') (char 'E')) (seq (optional sign) digits)

/-- A numeral. -/
def numeral : Peg :=
  seq (optional sign) (seq digits (seq (optional fraction) (optional exponent)))

/-- What stands between quotation marks on a line. -/
def body : Peg := many (seq (absent (orElse (char '"') (char '\n'))) any)

/-- A string that is closed on its line. -/
def quoted : Peg := seq (char '"') (seq body (char '"'))

/-- A dollar sign and a name. -/
def namedVariable : Peg := seq (char '$') (plus nameChar)

/-- A dollar sign. -/
def wildcard : Peg := char '$'

/-- An underscore. -/
def hole : Peg := char '_'

/-- A run of blanks. -/
def space : Peg := plus (one isBlank)

/-- What no word has in it. -/
def special : Peg :=
  firstOf [identifier, keyword .true, keyword .false, keyword .null, numeral, quoted,
    namedVariable, wildcard, hole, one isBlank]

/-- Characters at which nothing else begins. -/
def word : Peg := plus (seq (absent special) any)

end Grammar

/-! ## 3. Tokens by the rules -/

namespace Token

/-- What a token is. -/
inductive Kind where
  | identifier
  | keyword (k : Keyword)
  | numeral
  | quoted
  | variable
  | wildcard
  | hole
  | space
  | word
deriving DecidableEq, Repr

/-- The kind of a token. -/
def kind : Token → Kind
  | identifier _ => .identifier
  | keyword k => .keyword k
  | numeral _ => .numeral
  | quoted _ => .quoted
  | .variable _ => .variable
  | wildcard => .wildcard
  | hole => .hole
  | space _ => .space
  | word _ => .word

/-- The rule of a kind of tokens. -/
def Kind.rule : Kind → Peg
  | identifier => Grammar.identifier
  | keyword k => Grammar.keyword k
  | numeral => Grammar.numeral
  | quoted => Grammar.quoted
  | .variable => Grammar.namedVariable
  | wildcard => Grammar.wildcard
  | hole => Grammar.hole
  | space => Grammar.space
  | word => Grammar.word

/-- All kinds, in the order in which their rules are tried. -/
def Kind.all : List Kind :=
  [.identifier, .keyword .true, .keyword .false, .keyword .null, .numeral, .quoted, .variable,
    .wildcard, .hole, .space, .word]

end Token

namespace Grammar

/-- A token. -/
def term : Peg := Peg.firstOf (Token.Kind.all.map Token.Kind.rule)

/-- A whole text: tokens, and nothing behind them. -/
def sentence : Peg := .seq (.many term) (.absent .any)

/-- The first of the kinds whose rule goes through, and what it leaves. -/
inductive Picks : List Token.Kind → List Char → Token.Kind → List Char → Prop where
  | here {k : Token.Kind} {ks : List Token.Kind} {text rest : List Char}
    (h : k.rule.Leaves text (some rest)) : Picks (k :: ks) text k rest
  | later {k j : Token.Kind} {ks : List Token.Kind} {text rest : List Char}
    (h : k.rule.Leaves text none) (hlater : Picks ks text j rest) : Picks (k :: ks) text j rest

/-- A text is cut into pieces, each by the first rule that goes through, up to where none does. -/
inductive Cuts : List Char → List (Token.Kind × List Char) → List Char → Prop where
  | done {text : List Char} (h : term.Leaves text none) : Cuts text [] text
  | more {k : Token.Kind} {piece rest : List Char} {pieces : List (Token.Kind × List Char)}
    {left : List Char} (h : Picks Token.Kind.all (piece ++ rest) k rest)
    (hmore : Cuts rest pieces left) : Cuts (piece ++ rest) ((k, piece) :: pieces) left

end Grammar

end Blackboard
