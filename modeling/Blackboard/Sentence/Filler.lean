import Blackboard.Term.Basic
import Blackboard.Json.Basic
import Blackboard.Digest.Blake3

/-!
# Fillers

A filler is a value that is put into a hole of a template. Terms go in as they are; truth values,
finite numbers and strings become literals. Everything that has no literal form becomes a blob
reference, whose id is the digest of the text of the value, so that equal values have equal ids.
-/

namespace Blackboard

/-- The blob reference of a value that is given by its text. -/
def Term.blobOf (text : String) : Term := .blobRef (Blake3.ofText text)

/-- The term of a number: a literal if it is finite. -/
def Term.ofNumber (x : Binary64) : Term :=
  if x.isFinite then .number x else .blobOf (String.ofList x.plainChars)

/-- A value to put into a hole. -/
inductive Filler where
  | term (t : Term)
  | bool (b : Bool)
  | number (x : Binary64)
  | integer (i : Int)
  | string (s : String)
  | json (j : Json)
deriving Repr

namespace Filler

/-- The term that a JSON value becomes. -/
def ofJson : Json → Term
  | .bool b => .literal (.bool b)
  | .string s => .string s
  | .number n => .ofNumber n.toBinary64
  | j => .blobOf j.sorted.text

/-- The term that replaces the hole. -/
def toTerm : Filler → Term
  | term t => t
  | bool b => .literal (.bool b)
  | number x => .ofNumber x
  | integer i => .number (.ofInt i)
  | string s => .string s
  | json j => ofJson j

end Filler

end Blackboard
