import Blackboard.Toml.Quoted
import Blackboard.Toml.Scalar

/-!
# TOML documents

A document is read in two steps: its text into statements (`Toml.statements?`), and its statements
into a table (`Toml.build?`).

* A statement gives a value under a path, opens a table, or opens a new item of a list of tables.
* No value is given twice. A table that was opened or given as a value is never opened again; a
  table that only a path leads through (`Origin.passed`) can still be opened once, and one that a
  dotted key leads to (`Origin.dotted`) takes further values by dotted keys only.
* Lists and tables between braces may go over several lines, and are nested at most `nestingLimit`
  deep; a key has at most as many names.
-/

namespace Blackboard.Toml

/-! ## 1. Gaps -/

/-- A text without the blanks at its front. -/
def skipSpaces (cs : List Char) : List Char := cs.dropWhile isSpace

/-- A text without the blanks, line ends and comments at its front. -/
def skipGaps : Bool → List Char → List Char
  | _, [] => []
  | true, c :: cs => skipGaps (c != '\n') cs
  | false, c :: cs =>
    if isGap c then skipGaps false cs
    else if c == '#' then skipGaps true cs
    else c :: cs

/-- What follows the end of a line. -/
def lineEnd? (cs : List Char) : Option (List Char) :=
  let rest :=
    match skipSpaces cs with
    | '#' :: cs => cs.dropWhile (· != '\n')
    | cs => cs
  if rest.isEmpty then some [] else afterLineEnd? rest

/-! ## 2. Keys and values -/

/-- Whether a character can stand in a bare key. -/
def isKeyChar (c : Char) : Bool := c.isAlphanum || c == '_' || c == '-'

/-- How deep lists and tables between braces may be nested, and how many names a key may have. -/
def nestingLimit : Nat := 80

/-- One name of a key. -/
def name? : Step String := fun cs =>
  let bare := cs.takeWhile isKeyChar
  if bare.isEmpty then shortString? cs else some (String.ofList bare, cs.drop bare.length)

/-- Names with dots between them, no more than the given number. -/
def names? : Nat → Step (List String)
  | 0, _ => none
  | most + 1, cs => do
    let (name, rest) ← name? (skipSpaces cs)
    match skipSpaces rest with
    | '.' :: rest =>
      let (names, rest) ← names? most rest
      return (name :: names, rest)
    | rest => return ([name], rest)

/-- A key. -/
def key? : Step (List String) := names? nestingLimit

/-- How a table came to be. -/
inductive Origin where
  /-- It was opened by a header. -/
  | opened
  /-- A header leads through it. -/
  | passed
  /-- A dotted key leads to it. -/
  | dotted
deriving DecidableEq, Repr

/-- A part of a document that is being built. -/
inductive Node where
  | value (s : Setting)
  | table (origin : Origin) (members : List (String × Node))
  /-- A list of tables, the latest of which stands apart because it can still grow. -/
  | tables (before : List Setting) (latest : List (String × Node))
deriving Repr

mutual

/-- The setting that a part of a document is. -/
def Node.setting : Node → Setting
  | .value s => s
  | .table _ members => .table (settings members)
  | .tables before latest => .list (before ++ [.table (settings latest)])

/-- The settings of the members of a table. -/
def settings : List (String × Node) → List (String × Setting)
  | [] => []
  | (name, node) :: rest => (name, node.setting) :: settings rest

end

/-- A change of the members of a table. -/
abbrev Change := List (String × Node) → Option (List (String × Node))

/-- Whether a dotted key may lead into a table: to its end only into one that dotted keys made, and
    before its end not into one that was opened. -/
def dottedMayEnter (origin : Origin) (atEnd : Bool) : Bool :=
  match origin with
  | .opened => false
  | .passed => !atEnd
  | .dotted => true

/-- Changes the table at the end of a path. The path leads through the latest items of lists of
    tables, but never through values; the path of a dotted key enters tables by `dottedMayEnter`
    and does not end at an item of a list. Tables that are missing come to be on the way. -/
def within (way : Origin) (change : Change) : List String → Change
  | [], members => change members
  | name :: path, members => do
    let node ←
      match lookupEntry name members with
      | none => Node.table way <$> within way change path []
      | some (.table origin inner) =>
        if way = .dotted && !dottedMayEnter origin path.isEmpty then none
        else Node.table origin <$> within way change path inner
      | some (.tables before latest) =>
        if way = .dotted && path.isEmpty then none
        else Node.tables before <$> within way change path latest
      | some (.value _) => none
    return OrderedMap.insertEntry name node members

/-- Splits a path before its last name. -/
def splitLast? (path : List String) : Option (List String × String) :=
  path.getLast?.map fun last => (path.dropLast, last)

/-- Gives a value under a path. -/
def give (path : List String) (value : Setting) : Change := fun members => do
  let (path, last) ← splitLast? path
  within .dotted (fun inner =>
    if (lookupEntry last inner).isSome then none
    else some (OrderedMap.insertEntry last (.value value) inner)) path members

mutual

/-- A value in which `depth` containers may be nested. -/
def value? : Nat → Nat → Step Setting
  | 0, _, _ => none
  | fuel + 1, depth, cs =>
    match cs, depth with
    | '[' :: rest, depth + 1 => (items? fuel depth rest).map fun (vs, rest) => (.list vs, rest)
    | '\x7b' :: rest, depth + 1 =>
      (members? fuel depth [] rest).map fun (ms, rest) => (.table (settings ms), rest)
    | _, _ =>
      match string? cs with
      | some (s, rest) => some (.text s, rest)
      | none =>
        let word := bareChars cs
        (scalar? word).map fun s => (s, cs.drop word.length)

/-- The items of a list and its end. -/
def items? : Nat → Nat → Step (List Setting)
  | 0, _, _ => none
  | fuel + 1, depth, cs =>
    match skipGaps false cs with
    | ']' :: rest => some ([], rest)
    | cs => do
      let (v, rest) ← value? fuel depth cs
      match skipGaps false rest with
      | ',' :: rest =>
        let (vs, rest) ← items? fuel depth rest
        return (v :: vs, rest)
      | ']' :: rest => return ([v], rest)
      | _ => none

/-- The members of a table between braces, after those before, and its end. -/
def members? : Nat → Nat → List (String × Node) → Step (List (String × Node))
  | 0, _, _, _ => none
  | fuel + 1, depth, before, cs =>
    match skipGaps false cs with
    | '\x7d' :: rest => some (before, rest)
    | cs => do
      let (path, rest) ← key? cs
      let rest ← after? '=' rest
      let (v, rest) ← value? fuel depth (skipSpaces rest)
      let members ← give path v before
      match skipGaps false rest with
      | ',' :: rest => members? fuel depth members rest
      | '\x7d' :: rest => return (members, rest)
      | _ => none

end

/-! ## 3. Statements -/

/-- A statement of a document. -/
inductive Statement where
  | give (path : List String) (value : Setting)
  | openTable (path : List String)
  | openItem (path : List String)
deriving Repr

/-- A statement that is not a gap. -/
def statement? (cs : List Char) : Option (Statement × List Char) :=
  match cs with
  | '[' :: '[' :: rest => do
    let (path, rest) ← key? rest
    let rest ← after? ']' rest >>= after? ']'
    return (.openItem path, rest)
  | '[' :: rest => do
    let (path, rest) ← key? rest
    let rest ← after? ']' rest
    return (.openTable path, rest)
  | _ => do
    let (path, rest) ← key? cs
    let rest := skipSpaces (← after? '=' rest)
    let (v, rest) ← value? (rest.length + 1) nestingLimit rest
    return (.give path v, rest)

/-- The statements of a document, one on a line. -/
def statements? : Nat → List Char → Option (List Statement)
  | 0, _ => none
  | fuel + 1, cs =>
    match skipGaps false cs with
    | [] => some []
    | cs => do
      let (s, rest) ← statement? cs
      let rest ← lineEnd? rest
      return s :: (← statements? fuel rest)

/-! ## 4. Building -/

/-- Opens a table. -/
def openTable (path : List String) : Change := fun members => do
  let (path, last) ← splitLast? path
  within .passed (fun inner =>
    match lookupEntry last inner with
    | none => some (OrderedMap.insertEntry last (.table .opened []) inner)
    | some (.table .passed nodes) => some (OrderedMap.insertEntry last (.table .opened nodes) inner)
    | some _ => none) path members

/-- Opens a new item of a list of tables. -/
def openItem (path : List String) : Change := fun members => do
  let (path, last) ← splitLast? path
  within .passed (fun inner =>
    match lookupEntry last inner with
    | none => some (OrderedMap.insertEntry last (.tables [] []) inner)
    | some (.tables before latest) =>
      some (OrderedMap.insertEntry last (.tables (before ++ [.table (settings latest)]) []) inner)
    | some _ => none) path members

/-- A document that is being built: its members, and the path of the open table. -/
structure Draft where
  members : List (String × Node) := []
  here : List String := []

/-- Carries out a statement. -/
def Draft.add (d : Draft) : Statement → Option Draft
  | .give path value => do
    return { d with members := ← within .passed (give path value) d.here d.members }
  | .openTable path => do return ⟨← openTable path d.members, path⟩
  | .openItem path => do return ⟨← openItem path d.members, path⟩

/-- The table that statements build. -/
def build? (statements : List Statement) : Option (List (String × Setting)) :=
  (statements.foldlM Draft.add {}).map fun d => settings d.members

/-! ## 5. Texts -/

/-- Whether all characters can stand in a document: of the control characters only tabs and those
    of line ends. -/
def areAllowed : List Char → Bool
  | [] => true
  | '\r' :: cs => cs.head? == some '\n' && areAllowed cs
  | c :: cs => (c == '\t' || c == '\n' || (0x20 ≤ c.toNat && c.toNat != 0x7F)) && areAllowed cs

/-- A text without a byte order mark. -/
def dropMark : List Char → List Char
  | '\uFEFF' :: cs => cs
  | cs => cs

/-- Reads a document. The file and the document in it may both begin with a byte order mark. -/
def ofText? (text : String) : Option (List (String × Setting)) :=
  let cs := dropMark (dropMark text.toList)
  if areAllowed cs then statements? (cs.length + 1) cs >>= build? else none

end Blackboard.Toml
