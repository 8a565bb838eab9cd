import Blackboard.Number.Numeral
import Blackboard.Text.Escape

/-!
# Terms

A sentence is a flat row of terms. A stored fact holds identifiers, words, literals and blob
references only; variables and wildcards stand in patterns, and holes stand in templates until they
are filled.

`Term.equal` is the equality that matching goes by: numbers are compared as numbers, all else as it
is written. `Term.chars` is the text of a term.
-/

namespace Blackboard

/-! ## 1. Literals -/

/-- A plain value in a sentence. -/
inductive Literal where
  | bool (b : Bool)
  | number (x : Binary64)
  | string (s : String)
  | null
deriving DecidableEq, Repr

namespace Literal

/-- Equality of literals, numbers being compared as numbers. -/
def equal : Literal → Literal → Bool
  | bool a, bool b => a == b
  | number x, number y => x.equal y
  | string s, string t => s == t
  | null, null => true
  | _, _ => false

/-- The text of a literal. Both zeros are written `0`, and a string escapes only what its reader
    turns back. -/
def chars : Literal → List Char
  | bool true => ['t', 'r', 'u', 'e']
  | bool false => ['f', 'a', 'l', 's', 'e']
  | number x => if x.isZero then ['0'] else x.plainChars
  | string s => '"' :: escape s.toList ++ ['"']
  | null => ['n', 'u', 'l', 'l']

/-- The number that a literal is, if it is one. -/
def asNumber? : Literal → Option Binary64
  | number x => some x
  | _ => none

/-- The string that a literal is, if it is one. -/
def asString? : Literal → Option String
  | string s => some s
  | _ => none

/-- The truth value that a literal is, if it is one. -/
def asBool? : Literal → Option Bool
  | bool b => some b
  | _ => none

end Literal

/-! ## 2. Terms -/

/-- One element of a sentence. -/
inductive Term where
  /-- The name of a thing. -/
  | identifier (name : String)
  /-- Free text, or a single space. -/
  | word (text : String)
  | literal (value : Literal)
  /-- A value that is kept elsewhere, known by its id. -/
  | blobRef (id : String)
  /-- Stands for one and the same term wherever it occurs. -/
  | variable (name : String)
  /-- Stands for any term. -/
  | wildcard
  /-- A place that a template leaves open. -/
  | hole
deriving DecidableEq, Repr

namespace Term

/-- The literal of a number. -/
def number (x : Binary64) : Term := .literal (.number x)

/-- The literal of a string. -/
def string (s : String) : Term := .literal (.string s)

/-- Whether the term is a hole. -/
def isHole : Term → Bool
  | hole => true
  | _ => false

/-- Whether the term is open to be matched: a variable or a wildcard. -/
def isOpen : Term → Bool
  | .variable _ | wildcard => true
  | _ => false

/-- Whether the term can stand in a stored fact. -/
def isGround : Term → Bool
  | .variable _ | wildcard | hole => false
  | _ => true

/-- Equality of terms, numbers being compared as numbers. -/
def equal : Term → Term → Bool
  | identifier a, identifier b => a == b
  | word a, word b => a == b
  | literal a, literal b => a.equal b
  | blobRef a, blobRef b => a == b
  | .variable a, .variable b => a == b
  | wildcard, wildcard => true
  | hole, hole => true
  | _, _ => false

/-- The text of a term. -/
def chars : Term → List Char
  | identifier name => '#' :: name.toList
  | word text => text.toList
  | literal value => value.chars
  | blobRef id => '@' :: id.toList
  | .variable name => '$' :: name.toList
  | wildcard => ['$']
  | hole => ['_']

/-- The text of a term as a string. -/
def text (t : Term) : String := String.ofList t.chars

end Term

end Blackboard
