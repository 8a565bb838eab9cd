import Blackboard.Text.Pieces
import Blackboard.Json.Token

/-!
# Query strings

The form encoding of the query part of an address: pairs of a key and a value, joined by `&`, with
`=` between key and value. Letters, digits and `*-._` stand for themselves, a space is written `+`,
and every other byte of the UTF-8 form is written as a percent sign and two hexadecimal digits.

Reading is lenient: a percent sign that is not followed by two hexadecimal digits stands for itself,
and bytes that are not UTF-8 become replacement characters, one for each longest beginning of a
character.
-/

namespace Blackboard.Form

/-! ## 1. Writing -/

/-- Whether a byte stands for itself. -/
def isPlain (b : UInt8) : Bool :=
  (b < 128 && (Char.ofNat b.toNat).isAlphanum) || b == 0x2A || b == 0x2D || b == 0x2E || b == 0x5F

/-- A hexadecimal digit in upper case. -/
def hexDigit (n : Nat) : Char := n.digitChar.toUpper

/-- The encoding of a byte. -/
def encodeByte (b : UInt8) : List Char :=
  if isPlain b then [Char.ofNat b.toNat]
  else if b == 0x20 then ['+']
  else ['%', hexDigit (b.toNat / 16), hexDigit (b.toNat % 16)]

/-- The encoding of a text. -/
def encode (text : String) : String := String.ofList (text.toUTF8.toList.flatMap encodeByte)

/-- The encoding of pairs. -/
def encodePairs (pairs : List (String × String)) : String :=
  String.intercalate "&" (pairs.map fun (k, v) => encode k ++ "=" ++ encode v)

/-! ## 2. Reading -/

/-- The byte at the front of an encoded text, and how many further bytes its spelling covers. -/
def nextByte (b : UInt8) (rest : List UInt8) : UInt8 × Nat :=
  if b == 0x2B then (0x20, 0)
  else if b == 0x25 then
    match rest with
    | h :: l :: _ =>
      match Json.hexValue? (Char.ofNat h.toNat), Json.hexValue? (Char.ofNat l.toNat) with
      | some h, some l => (UInt8.ofNat (16 * h + l), 2)
      | _, _ => (b, 0)
    | _ => (b, 0)
  else (b, 0)

/-- The character that stands for bytes that are no character. -/
def replacement : Char := '\uFFFD'

/-- Whether a byte can follow the first byte of a character. -/
def isFollowing (b : UInt8) : Bool := 0x80 ≤ b && b < 0xC0

/-- The bytes that can come second after the given first byte: all following bytes but those that
    would spell a character too long or spell none. -/
def isSecond (first b : UInt8) : Bool :=
  isFollowing b &&
    (first != 0xE0 || 0xA0 ≤ b) && (first != 0xED || b < 0xA0) &&
    (first != 0xF0 || 0x90 ≤ b) && (first != 0xF4 || b < 0x90)

/-- The number of bytes that the first byte of a character announces behind it. -/
def followers (first : UInt8) : Nat :=
  if 0xC2 ≤ first && first < 0xE0 then 1
  else if 0xE0 ≤ first && first < 0xF0 then 2
  else if 0xF0 ≤ first && first < 0xF5 then 3
  else 0

/-- How many of the announced bytes are there. -/
def present (first : UInt8) (rest : List UInt8) : Nat :=
  match rest.take (followers first) with
  | [] => 0
  | second :: others =>
    if isSecond first second then 1 + (others.takeWhile isFollowing).length else 0

/-- The character at the front of a row of bytes, and how many further bytes it covers. -/
def nextChar (first : UInt8) (rest : List UInt8) : Char × Nat :=
  if first < 0x80 then (Char.ofNat first.toNat, 0)
  else
    let n := present first rest
    if n = 0 || n < followers first then (replacement, n)
    else
      let lead := first.toNat % 1 <<< (6 - n)
      let code := (rest.take n).foldl (fun code b => code * 64 + b.toNat % 64) lead
      (Char.ofNat code, n)

/-- Reads an encoded text. -/
def decode (text : String) : String :=
  String.ofList (cut nextChar (cut nextByte text.toUTF8.toList))

/-- The parts of a row between the elements for which a test holds. -/
def splitOn (sep : Char) : List Char → List (List Char)
  | [] => [[]]
  | c :: cs =>
    if c = sep then [] :: splitOn sep cs
    else
      match splitOn sep cs with
      | part :: parts => (c :: part) :: parts
      | [] => [[c]]

/-- A pair: everything up to the first equals sign, and everything behind it. -/
def decodePair (part : List Char) : String × String :=
  let key := part.takeWhile (· != '=')
  (decode (String.ofList key), decode (String.ofList (part.drop (key.length + 1))))

/-- The pairs of a query string; empty parts do not count. -/
def decodePairs (query : String) : List (String × String) :=
  ((splitOn '&' query.toList).filter fun part => !part.isEmpty).map decodePair

end Blackboard.Form
