import Blackboard.Json.Reader
import Blackboard.Failure

/-!
# Decoding messages

Messages are decoded while their tokens are read: a reader takes what it expects from the front of
the tokens, and the first fault counts, whatever comes behind it. A fault of the text (a token that
cannot stand there, a number that is too large, containers nested too deep) is told apart from a
value of the wrong kind.

A message is an object, whose members may come in any order and of which those that the message does
not know are left out, or an array of the fields in their order (`Format.take`).
-/

namespace Blackboard

/-- Why a JSON text is not a message. -/
inductive DecodeFault where
  /-- The text is not one that can be read. -/
  | malformed
  /-- A value does not have the shape that the message has there. -/
  | shape
  /-- A value in the place of a term is no term. -/
  | term (failure : Failure)
deriving DecidableEq, Repr

/-- What decoding answers. -/
abbrev Decoded (α : Type) := Except DecodeFault α

namespace Json

/-- A reader of a part of a message: what it read, and the tokens behind it. -/
abbrev Reader (α : Type) := List Token → Decoded (α × List Token)

variable {α σ δ : Type}

/-! ## 1. Values -/

/-- The fault of tokens that do not begin with a value of the expected kind. -/
def misfit : List Token → DecodeFault
  | .scalar (.number n) :: _ => if n.isFinite then .shape else .malformed
  | .scalar _ :: _ | .openArray :: _ | .openObject :: _ => .shape
  | _ => .malformed

/-- A string. -/
def takeString : Reader String
  | .scalar (.string s) :: ts => .ok (s, ts)
  | ts => .error (misfit ts)

/-- A string or nothing. -/
def takeString? : Reader (Option String)
  | .scalar .null :: ts => .ok (none, ts)
  | .scalar (.string s) :: ts => .ok (some s, ts)
  | ts => .error (misfit ts)

/-- A natural number of at most 64 bits. -/
def takeNat : Reader Nat
  | .scalar v :: ts =>
    match v.asNat? with
    | some n => .ok (n, ts)
    | none => .error (misfit (.scalar v :: ts))
  | ts => .error (misfit ts)

/-- Any value, within `level` containers of a text. -/
def takeValue (level : Nat) : Reader Json := fun ts =>
  match take? ts with
  | some (v, rest) => if v.isSound (depthLimit - level) then .ok (v, rest) else .error .malformed
  | none => .error .malformed

/-- What follows a value that is left out. -/
def skipValue (ts : List Token) : Decoded (List Token) :=
  match skip? ts with
  | some rest => .ok rest
  | none => .error .malformed

/-! ## 2. Containers -/

/-- Items with a comma in front of each of them, up to the closing token. Every item changes a
    state; `fuel` bounds their number. -/
def takeMore (isEnd : Token → Bool) (item : σ → Reader σ) : Nat → σ → Reader σ
  | 0, _, _ => .error .malformed
  | fuel + 1, s, .comma :: ts => do
    let (s, ts) ← item s ts
    takeMore isEnd item fuel s ts
  | _ + 1, s, t :: ts => if isEnd t then .ok (s, ts) else .error .malformed
  | _ + 1, _, [] => .error .malformed

/-- Items with commas between them, up to the closing token. -/
def takeItems (isEnd : Token → Bool) (item : σ → Reader σ) (s : σ) : Reader σ
  | [] => .error .malformed
  | t :: ts =>
    if isEnd t then .ok (s, ts)
    else do
      let (s, rest) ← item s (t :: ts)
      takeMore isEnd item (rest.length + 1) s rest

/-- Whether a token closes an array. -/
def Token.closesArray : Token → Bool
  | closeArray => true
  | _ => false

/-- Whether a token closes an object. -/
def Token.closesObject : Token → Bool
  | closeObject => true
  | _ => false

/-- An array of values of one kind. -/
def takeArray (item : Reader α) : Reader (List α)
  | .openArray :: ts => do
    let push (before : List α) : Reader (List α) := fun ts => do
      let (a, ts) ← item ts
      return (a :: before, ts)
    let (items, ts) ← takeItems Token.closesArray push [] ts
    return (items.reverse, ts)
  | ts => .error (misfit ts)

/-- A key. -/
def takeKey : Reader String
  | .scalar (.string key) :: ts => .ok (key, ts)
  | _ => .error .malformed

/-- What follows a colon. -/
def takeColon : List Token → Decoded (List Token)
  | .colon :: ts => .ok ts
  | _ => .error .malformed

/-! ## 3. Messages -/

/-- A field of a message, which is read into a draft. -/
structure Field (δ : Type) where
  name : String
  /-- Whether a draft has the field already. -/
  isSet : δ → Bool
  /-- Reads the value of the field. -/
  take : δ → Reader δ

/-- A field with a value of one kind. -/
def Field.of (name : String) (get : δ → Option α) (set : δ → α → δ) (take : Reader α) :
    Field δ where
  name
  isSet d := (get d).isSome
  take d ts := do
    let (a, ts) ← take ts
    return (set d a, ts)

/-- How a message is read: its fields in their order, the draft without any of them, and the message
    that a draft makes, if nothing is missing. -/
structure Format (δ α : Type) where
  fields : List (Field δ)
  start : δ
  finish : δ → Option α

namespace Format

/-- A member of the object that is a message. A field that is set already is not read again, and a
    member that is no field is left out. -/
def takeMember (f : Format δ α) (d : δ) : Reader δ := fun ts => do
  let (key, ts) ← takeKey ts
  match f.fields.find? (·.name == key) with
  | some field => if field.isSet d then .error .shape else field.take d (← takeColon ts)
  | none => return (d, ← skipValue (← takeColon ts))

/-- The value of the first of the fields that an array has not given yet. -/
def takeNext : List (Field δ) × δ → Reader (List (Field δ) × δ)
  | ([], _), _ => .error .malformed
  | (field :: fields, d), ts => do
    let (d, ts) ← field.take d ts
    return ((fields, d), ts)

/-- The fields of a message, from an object or from an array. -/
def takeDraft (f : Format δ α) : Reader δ
  | .openObject :: ts => takeItems Token.closesObject f.takeMember f.start ts
  | .openArray :: ts => do
    let ((_, d), ts) ← takeItems Token.closesArray takeNext (f.fields, f.start) ts
    return (d, ts)
  | ts => .error (misfit ts)

/-- A message. -/
def take (f : Format δ α) : Reader α := fun ts => do
  let (d, ts) ← f.takeDraft ts
  match f.finish d with
  | some a => return (a, ts)
  | none => .error .shape

end Format

/-! ## 4. Whole texts -/

/-- Reads tokens up to their end. -/
def Reader.whole (take : Reader α) (ts : List Token) : Decoded α := do
  match ← take ts with
  | (a, []) => return a
  | _ => .error .malformed

/-- Reads a value. -/
def Reader.decode (take : Reader α) (j : Json) : Decoded α := take.whole j.tokens

end Json

end Blackboard
