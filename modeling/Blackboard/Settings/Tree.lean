import Blackboard.OrderedMap
import Blackboard.Settings.Path

/-!
# Trees of settings

A source of settings gives a tree, and sources are laid over one another from the weakest to the
strongest. A value replaces what stands in its place, but a table that is laid over a table is
merged with it member by member (`Setting.lay`).

The keys of a source are paths (`Setting.layer`). What stands in the way of a path is replaced, and
a list becomes as long as the path needs it.

Settings are read leniently: a number may come as a text, a truth value or a fraction, and a text
may come as any scalar.
-/

namespace Blackboard

/-- A setting as a source gives it. -/
inductive Setting where
  /-- No value: an item of a list that nobody has given. -/
  | nothing
  | bool (b : Bool)
  | integer (i : Int)
  | real (x : Binary64)
  | text (s : String)
  | list (items : List Setting)
  | table (members : List (String × Setting))
deriving Repr

namespace Setting

/-- The members of a table. What is not a table counts as one without members. -/
def members : Setting → List (String × Setting)
  | table members => members
  | _ => []

/-- The items of a list. What is not a list counts as one without items. -/
def items : Setting → List Setting
  | list items => items
  | _ => []

/-- The setting under a name. -/
def get? (s : Setting) (name : String) : Option Setting := lookupEntry name s.members

/-! ## 1. Laying over -/

mutual

/-- Lays a setting over another one. -/
def lay (lower : Setting) : Setting → Setting
  | table upper => table (layMembers lower.members upper)
  | value => value

/-- Lays the members of a table over those of another one. -/
def layMembers (lower : List (String × Setting)) :
    List (String × Setting) → List (String × Setting)
  | [] => lower
  | (name, value) :: rest =>
    let merged := ((lookupEntry name lower).getD nothing).lay value
    layMembers (OrderedMap.insertEntry name merged lower) rest

end

/-- The items of a list that is long enough for a position, and the index of the position. New items
    come to the end of the list, or for a position before its first item to the front. -/
def reach (position : Int) (items : List Setting) : List Setting × Nat :=
  let n := position.natAbs
  if 0 ≤ position then (items ++ List.replicate (n + 1 - items.length) nothing, n)
  else if n ≤ items.length then (items, items.length - n)
  else (List.replicate (n - items.length) nothing ++ items, 0)

/-- Changes the part of a setting at the end of a path. -/
def changeAt (change : Setting → Setting) : List PathStep → Setting → Setting
  | [], s => change s
  | .member name :: path, s =>
    let inner := (s.get? name).getD nothing
    table (OrderedMap.insertEntry name (changeAt change path inner) s.members)
  | .item position :: path, s =>
    let (items, n) := reach position s.items
    list (items.modify n (changeAt change path))

/-- Lays settings over a tree, each of them at the path that its key is. -/
def layer (root : Setting) (upper : List (String × Setting)) : Setting :=
  upper.foldl (fun root (key, value) => changeAt (lay · value) (pathOf key) root) root

/-! ## 2. Reading -/

/-- The largest natural number that a setting can be. -/
def numberLimit : Nat := 0xFFFFFFFFFFFFFFFF

/-- The natural number that a word stands for. -/
def numberOfWord? (word : String) : Option Nat :=
  match word.toLower with
  | "true" | "on" | "yes" => some 1
  | "false" | "off" | "no" => some 0
  | _ => (natOfText? word).filter (· ≤ numberLimit)

/-- The natural number that a setting stands for. Fractions are rounded. -/
def asNat? : Setting → Option Nat
  | bool b => some (if b then 1 else 0)
  | integer i => if 0 ≤ i then some i.toNat else none
  | real x => some (x.toNatWithin numberLimit)
  | text s => numberOfWord? s
  | nothing | list _ | table _ => none

/-- The natural number that a setting stands for, if it does not exceed a limit. -/
def asNatUpTo? (limit : Nat) (s : Setting) : Option Nat := s.asNat?.filter (· ≤ limit)

/-- The text that a setting stands for. -/
def asText? : Setting → Option String
  | bool b => some (if b then "true" else "false")
  | integer i => some (toString i)
  | real x => some (String.ofList x.plainChars)
  | text s => some s
  | nothing | list _ | table _ => none

end Setting

end Blackboard
