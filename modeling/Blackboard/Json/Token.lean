import Blackboard.Json.Basic
import Blackboard.Text.Pieces

/-!
# JSON tokens

A JSON text is a row of tokens: punctuation, and scalars that are complete values. Blanks between
tokens do not count. Where no token can be read there is a broken token, and what reads the tokens
stops at it.

* `Token.ofChars` are the tokens of a text, and `Json.tokens` those of a value.
* The body of a string is first read as code units (`StringUnit`), because a character outside of
  the basic plane can be written as two escapes, which `joinUnits` puts together. A string in which
  one of the two is missing is a token of its own: it spells no text, but it can be left out.
-/

namespace Blackboard.Json

/-! ## 1. Tokens -/

/-- A token of a JSON text. -/
inductive Token where
  | openArray
  | closeArray
  | openObject
  | closeObject
  | comma
  | colon
  /-- A value that is not a container. -/
  | scalar (value : Json)
  /-- A string that spells no text, because a code unit of a pair lacks its partner. -/
  | unpaired
  /-- Characters that are no token. -/
  | broken
deriving Repr

/-- The token that a punctuation character is. -/
def Token.ofChar? : Char → Option Token
  | '[' => some openArray
  | ']' => some closeArray
  | '\x7b' => some openObject
  | '\x7d' => some closeObject
  | ',' => some comma
  | ':' => some colon
  | _ => none

/-- A blank between tokens. -/
def isGap (c : Char) : Bool := c = ' ' || c = '\n' || c = '\t' || c = '\r'

/-! ## 2. Strings -/

/-- A piece of the body of a string: a character, or a code unit of 16 bits from an escape. -/
inductive StringUnit where
  | char (c : Char)
  | unit (n : Nat)
deriving DecidableEq, Repr

/-- The value of a hexadecimal digit in either case. -/
def hexValue? (c : Char) : Option Nat :=
  if '0' ≤ c ∧ c ≤ '9' then some (c.toNat - '0'.toNat)
  else if 'a' ≤ c ∧ c ≤ 'f' then some (c.toNat - 'a'.toNat + 10)
  else if 'A' ≤ c ∧ c ≤ 'F' then some (c.toNat - 'A'.toNat + 10)
  else none

/-- The value of a row of hexadecimal digits. -/
def hexValues? (cs : List Char) : Option Nat :=
  cs.foldlM (fun n c => (hexValue? c).map (16 * n + ·)) 0

/-- The character that a letter stands for after a backslash. -/
def unescapedChar? : Char → Option Char
  | '"' => some '"'
  | '\\' => some '\\'
  | '/' => some '/'
  | 'b' => some '\x08'
  | 'f' => some '\x0c'
  | 'n' => some '\n'
  | 'r' => some '\r'
  | 't' => some '\t'
  | _ => none

/-- The units of the body of a string up to the closing quote, and the number of characters that
    the body and the quote cover. -/
def stringUnits? : List Char → Option (List StringUnit × Nat)
  | [] => none
  | '"' :: _ => some ([], 1)
  | '\\' :: 'u' :: a :: b :: c :: d :: cs => do
    let n ← hexValues? [a, b, c, d]
    let (us, k) ← stringUnits? cs
    return (.unit n :: us, k + 6)
  | '\\' :: c :: cs => do
    let e ← unescapedChar? c
    let (us, k) ← stringUnits? cs
    return (.char e :: us, k + 2)
  | c :: cs => do
    if c.toNat < 0x20 || c = '\\' then none
    let (us, k) ← stringUnits? cs
    return (.char c :: us, k + 1)

/-- The code units that start a pair. -/
def isHighUnit (n : Nat) : Bool := 0xD800 ≤ n && n < 0xDC00

/-- The code units that end a pair. -/
def isLowUnit (n : Nat) : Bool := 0xDC00 ≤ n && n < 0xE000

/-- The characters of a row of units; units of a pair without their partner have none. -/
def joinUnits : List StringUnit → Option (List Char)
  | [] => some []
  | .char c :: us => (c :: ·) <$> joinUnits us
  | .unit h :: .unit l :: us =>
    if isHighUnit h then
      if isLowUnit l then
        (Char.ofNat (0x10000 + (h - 0xD800) * 0x400 + (l - 0xDC00)) :: ·) <$> joinUnits us
      else none
    else if isLowUnit h then none
    else (Char.ofNat h :: ·) <$> joinUnits (.unit l :: us)
  | .unit n :: us =>
    if isHighUnit n || isLowUnit n then none else (Char.ofNat n :: ·) <$> joinUnits us

/-- The token of a string whose body follows, and the number of characters it covers. -/
def stringToken? (cs : List Char) : Option (Token × Nat) := do
  let (us, k) ← stringUnits? cs
  match joinUnits us with
  | some body => return (.scalar (.string (String.ofList body)), k)
  | none => return (.unpaired, k)

/-! ## 3. Scalars -/

/-- Whether a numeral breaks off: behind it stands a point or an exponent mark, but no digit that
    would make it a part of the numeral. -/
def breaksOff (n : Numeral) : List Char → Bool
  | [] => false
  | c :: _ => (c = '.' && n.isInteger) || ((c = 'e' || c = 'E') && n.exponent.isNone)

/-- The numeral at the front of a text, if JSON admits it: no plus sign and no leading zeros. -/
def numeral? (cs : List Char) : Option Numeral :=
  (Numeral.scan? cs).filter fun n =>
    n.sign != some .plus && (n.whole.head? != some '0' || n.whole.length = 1) &&
      !breaksOff n (cs.drop n.chars.length)

/-- The token at the front of a text, if it is not a gap, and how many further characters it
    covers. -/
def nextToken (c : Char) (cs : List Char) : Option Token × Nat :=
  if isGap c then (none, 0)
  else
    match Token.ofChar? c with
    | some t => (some t, 0)
    | none =>
      if c = '"' then
        match stringToken? cs with
        | some (t, k) => (some t, k)
        | none => (some .broken, 0)
      else
        match c, cs with
        | 'n', 'u' :: 'l' :: 'l' :: _ => (some (.scalar .null), 3)
        | 't', 'r' :: 'u' :: 'e' :: _ => (some (.scalar (.bool true)), 3)
        | 'f', 'a' :: 'l' :: 's' :: 'e' :: _ => (some (.scalar (.bool false)), 4)
        | _, _ =>
          match numeral? (c :: cs) with
          | some n => (some (.scalar (.number (.ofNumeral n))), n.chars.length - 1)
          | none => (some .broken, 0)

/-- The tokens of a text. -/
def Token.ofChars (cs : List Char) : List Token := (cut nextToken cs).filterMap id

/-! ## 4. Values -/

mutual

/-- The tokens of a value. -/
def tokens : Json → List Token
  | .array items => .openArray :: separatedBy .comma (itemsTokens items) ++ [.closeArray]
  | .object members => .openObject :: separatedBy .comma (membersTokens members) ++ [.closeObject]
  | .null => [.scalar .null]
  | .bool b => [.scalar (.bool b)]
  | .number n => [.scalar (.number n)]
  | .string s => [.scalar (.string s)]

/-- The tokens of the items of an array. -/
def itemsTokens : List Json → List (List Token)
  | [] => []
  | v :: vs => tokens v :: itemsTokens vs

/-- The tokens of the members of an object. -/
def membersTokens : List (String × Json) → List (List Token)
  | [] => []
  | (k, v) :: ms => (.scalar (.string k) :: .colon :: tokens v) :: membersTokens ms

end

end Blackboard.Json
