/-!
# Media types

Which content types announce a JSON body: `application/json`, and every type `application/…` with
the suffix `+json`, in any case and with any parameters.

Parameters follow the type behind semicolons, each with a name, an equals sign and a value, which
may stand in quotes. Whether a text is a row of parameters is told character by character, by the
place that has been reached (`Place.step`).
-/

namespace Blackboard.Http

/-- The characters of the names in a media type. -/
def isTokenChar (c : Char) : Bool :=
  c.isAlphanum || "!#$%&'*+-.^_|~".toList.contains c || c.toNat == 0x60

/-- The characters that can stand between quotes. -/
def isQuotable (c : Char) : Bool := 0x20 ≤ c.toNat && c.toNat < 0x7F

/-! ## 1. Parameters -/

/-- A place in a row of parameters. -/
inductive Place where
  /-- Before a name. -/
  | front
  /-- In a name. -/
  | name
  /-- Behind an equals sign. -/
  | equals
  /-- In a value. -/
  | value
  /-- Behind an opening quote. -/
  | quote
  /-- In a value between quotes, which has one character at least. -/
  | quoted
  /-- Behind a closing quote. -/
  | closed
deriving DecidableEq, Repr

namespace Place

/-- The place behind a character, if the character can stand there. -/
def step (p : Place) (c : Char) : Option Place :=
  match p with
  | front => if c = ' ' then some front else if isTokenChar c then some name else none
  | name => if c = '=' then some equals else if isTokenChar c then some name else none
  | equals => if c = '"' then some quote else if isTokenChar c then some value else none
  | value => if c = ';' then some front else if isTokenChar c then some value else none
  | quote => if isQuotable c then some quoted else none
  | quoted => if c = '"' then some closed else if isQuotable c then some quoted else none
  | closed => if c = ';' then some front else if c = ' ' then some closed else none

/-- Whether a row of parameters can end at a place. -/
def isEnd : Place → Bool
  | front | equals | value | closed => true
  | name | quote | quoted => false

end Place

/-- Whether a text is a row of parameters. -/
def areParameters (cs : List Char) : Bool := (cs.foldlM Place.step .front).any Place.isEnd

/-! ## 2. Types -/

/-- Whether a subtype is JSON or has JSON for its suffix. A plus sign at the front begins no
    suffix. -/
def isJsonSubtype (subtype : List Char) : Bool :=
  let suffix := (subtype.reverse.takeWhile (· != '+')).reverse
  let stem := subtype.take (subtype.length - suffix.length - 1)
  if stem.isEmpty then subtype == "json".toList
  else stem == "json".toList || suffix == "json".toList

/-- Whether a content type announces JSON. -/
def isJsonType (contentType : String) : Bool :=
  let cs := contentType.toList.map Char.toLower
  let kind := cs.takeWhile isTokenChar
  match cs.drop kind.length with
  | '/' :: cs =>
    let subtype := cs.takeWhile isTokenChar
    let parametersFit :=
      match cs.drop subtype.length with
      | [] => true
      | ';' :: parameters => areParameters parameters
      | _ => false
    kind == "application".toList && isJsonSubtype subtype && parametersFit
  | _ => false

end Blackboard.Http
