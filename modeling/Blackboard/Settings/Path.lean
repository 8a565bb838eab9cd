import Blackboard.Number.Free

/-!
# Paths of settings

The key of a setting at the top of a source can be a path: a name, and behind it names with a dot in
front of them and positions between brackets, as in `server.port` or `server[1]`. A key that is
not spelled like that is a single name (`pathOf`).
-/

namespace Blackboard

/-- A step from a setting to a part of it. -/
inductive PathStep where
  /-- The member of a table. -/
  | member (name : String)
  /-- The item of a list; negative positions count from its end. -/
  | item (position : Int)
deriving DecidableEq, Repr

namespace PathStep

/-- Whether a character can stand in a name of a path. -/
def isNameChar (c : Char) : Bool := c.isAlphanum || c == '_' || c == '-'

/-- A name at the front of a text, and what follows. -/
def scanName? (cs : List Char) : Option (String × List Char) :=
  let name := cs.takeWhile isNameChar
  if name.isEmpty then none else some (String.ofList name, cs.drop name.length)

/-- A blank between brackets. -/
def isBlank (c : Char) : Bool := c == ' ' || c == '\t'

/-- A text without a minus sign at its front, and whether there was one. -/
def scanMinus : List Char → Bool × List Char
  | '-' :: cs => (true, cs)
  | cs => (false, cs)

/-- A position and the closing bracket at the front of a text, and what follows. -/
def scanPosition? (cs : List Char) : Option (Int × List Char) :=
  let (negative, cs) := scanMinus (cs.dropWhile isBlank)
  let digits := cs.takeWhile Char.isDigit
  let position : Int := if negative then -digitsValue digits else digitsValue digits
  match (cs.drop digits.length).dropWhile isBlank with
  | ']' :: rest =>
    if digits.isEmpty || !fitsSigned position then none else some (position, rest)
  | _ => none

/-- The steps behind the first name of a path; `fuel` is the number of characters. -/
def scan? : Nat → List Char → Option (List PathStep)
  | _, [] => some []
  | fuel + 1, '.' :: cs => do
    let (name, rest) ← scanName? cs
    return member name :: (← scan? fuel rest)
  | fuel + 1, '[' :: cs => do
    let (position, rest) ← scanPosition? cs
    return item position :: (← scan? fuel rest)
  | _, _ => none

end PathStep

/-- The path that a key is. -/
def pathOf (key : String) : List PathStep :=
  let steps? : Option (List PathStep) := do
    let (name, rest) ← PathStep.scanName? key.toList
    return .member name :: (← PathStep.scan? rest.length rest)
  steps?.getD [.member key]

end Blackboard
