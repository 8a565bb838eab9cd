import Blackboard.Number.Numeral

/-!
# JSON values and their text

A JSON value as it is read from a text: the members of an object keep their order, and a key that
is written twice occurs twice.

* `Json.chars` is the compact text of a value, without any blanks.
* `Json.sorted` is the value with the members of every object sorted by key, of which the last
  member of each key is kept. Texts that are shown or hashed are texts of sorted values.
* A number is an integer if its numeral is one and fits into 64 bits, and a binary64 number
  otherwise. A numeral that is too large for both reads as an infinity, which whoever takes the
  value refuses (`Json.isSound`).
-/

namespace Blackboard

/-- A number of a JSON text. -/
inductive Json.Number where
  | integer (i : Int)
  | real (x : Binary64)
deriving DecidableEq, Repr

/-- A JSON value. -/
inductive Json where
  | null
  | bool (b : Bool)
  | number (n : Json.Number)
  | string (s : String)
  | array (items : List Json)
  | object (members : List (String × Json))
deriving Repr

namespace Json

instance : Inhabited Json := ⟨.null⟩

/-! ## 1. Numbers -/

namespace Number

/-- The integers that stay integers: those of 64 bits, with or without a sign. -/
def fits (i : Int) : Bool := -0x8000000000000000 ≤ i && i < 0x10000000000000000

/-- What a numeral of a JSON text stands for. A negative zero is not an integer. Readers are taken to
    be exact: a numeral that is no integer is read as the number nearest to it, so that the numbers
    that were written are read again. -/
def ofNumeral (n : Numeral) : Number :=
  if n.isInteger && fits n.integer && !(n.isNegative && n.integer == 0) then .integer n.integer
  else .real n.value

/-- The number as a binary64 number. -/
def toBinary64 : Number → Binary64
  | .integer i => .ofInt i
  | .real x => x

/-- Whether the number is one that a JSON text can hold. -/
def isFinite : Number → Bool
  | .integer _ => true
  | .real x => x.isFinite

/-- The text of a number. Numbers that no text can hold are written as `null`. -/
def chars : Number → List Char
  | .integer i => if i < 0 then '-' :: Decimal.digitChars i.natAbs else Decimal.digitChars i.natAbs
  | .real x => x.scaledChars?.getD ['n', 'u', 'l', 'l']

end Number

/-! ## 2. Text -/

/-- A hexadecimal digit in lower case. -/
def hexChar (n : Nat) : Char := n.digitChar

/-- The text of one character inside of a string: quotes, backslashes and control characters are
    escaped. -/
def stringChar (c : Char) : List Char :=
  if c = '"' then ['\\', '"']
  else if c = '\\' then ['\\', '\\']
  else if c = '\n' then ['\\', 'n']
  else if c = '\t' then ['\\', 't']
  else if c = '\r' then ['\\', 'r']
  else if c.toNat = 0x8 then ['\\', 'b']
  else if c.toNat = 0xC then ['\\', 'f']
  else if c.toNat < 0x20 then
    ['\\', 'u', '0', '0', hexChar (c.toNat / 16), hexChar (c.toNat % 16)]
  else [c]

/-- The text of a string. -/
def stringChars (s : String) : List Char :=
  '"' :: s.toList.flatMap stringChar ++ ['"']

/-- Pieces with a separator between them. -/
def separatedBy {α : Type} (sep : α) : List (List α) → List α
  | [] => []
  | [p] => p
  | p :: ps => p ++ sep :: separatedBy sep ps

mutual

/-- The compact text of a value. -/
def chars : Json → List Char
  | .null => ['n', 'u', 'l', 'l']
  | .bool true => ['t', 'r', 'u', 'e']
  | .bool false => ['f', 'a', 'l', 's', 'e']
  | .number n => n.chars
  | .string s => stringChars s
  | .array items => '[' :: separatedBy ',' (itemsChars items) ++ [']']
  | .object members => '\x7b' :: separatedBy ',' (membersChars members) ++ ['\x7d']

/-- The texts of the items of an array. -/
def itemsChars : List Json → List (List Char)
  | [] => []
  | v :: vs => chars v :: itemsChars vs

/-- The texts of the members of an object. -/
def membersChars : List (String × Json) → List (List Char)
  | [] => []
  | (k, v) :: ms => (stringChars k ++ ':' :: chars v) :: membersChars ms

end

/-- The compact text of a value as a string. -/
def text (j : Json) : String := String.ofList j.chars

/-! ## 3. Members -/

/-- Puts a member at its place in a list that is sorted by key; a member of the same key is
    replaced. -/
def insertMember (key : String) (value : Json) : List (String × Json) → List (String × Json)
  | [] => [(key, value)]
  | (k, v) :: rest =>
    if key < k then (key, value) :: (k, v) :: rest
    else if key = k then (key, value) :: rest
    else (k, v) :: insertMember key value rest

mutual

/-- The value with sorted objects, of each key the last member. -/
def sorted : Json → Json
  | .array items => .array (sortedItems items)
  | .object members =>
    .object ((sortedMembers members).foldl (fun ms (k, v) => insertMember k v ms) [])
  | .null => .null
  | .bool b => .bool b
  | .number n => .number n
  | .string s => .string s

/-- The items of an array, each of them sorted. -/
def sortedItems : List Json → List Json
  | [] => []
  | v :: vs => sorted v :: sortedItems vs

/-- The members of an object in their order, the value of each sorted. -/
def sortedMembers : List (String × Json) → List (String × Json)
  | [] => []
  | (k, v) :: ms => (k, sorted v) :: sortedMembers ms

end

/-- The last member of a key. -/
def member? (key : String) (members : List (String × Json)) : Option Json :=
  members.reverse.lookup key

/-- The member of a key if the value is an object. -/
def get? (key : String) : Json → Option Json
  | .object members => member? key members
  | _ => none

/-- The text that a value is, if it is one. -/
def asString? : Json → Option String
  | .string s => some s
  | _ => none

/-- The items of an array. -/
def asArray? : Json → Option (List Json)
  | .array items => some items
  | _ => none

/-- The truth value that a value is, if it is one. -/
def asBool? : Json → Option Bool
  | .bool b => some b
  | _ => none

/-- The natural number of at most 64 bits that a value is, if it is one. -/
def asNat? : Json → Option Nat
  | .number (.integer i) => if 0 ≤ i then some i.toNat else none
  | _ => none

/-- The value of a natural number. -/
def ofNat (n : Nat) : Json := .number (.integer n)

/-! ## 4. What a reader accepts -/

mutual

/-- All numbers are finite and at most `depth` containers are nested. -/
def isSound : Json → Nat → Bool
  | .number n, _ => n.isFinite
  | .array items, depth => 0 < depth && itemsSound items (depth - 1)
  | .object members, depth => 0 < depth && membersSound members (depth - 1)
  | .null, _ | .bool _, _ | .string _, _ => true

/-- All items of an array are sound. -/
def itemsSound : List Json → Nat → Bool
  | [], _ => true
  | v :: vs, depth => isSound v depth && itemsSound vs depth

/-- The values of all members of an object are sound. -/
def membersSound : List (String × Json) → Nat → Bool
  | [], _ => true
  | (_, v) :: ms, depth => isSound v depth && membersSound ms depth

end

/-- How deep the containers of a text may be nested. -/
def depthLimit : Nat := 127

end Json

end Blackboard
