import Blackboard.Failure
import Blackboard.Sentence.Template
import Blackboard.Settings.Tree
import Blackboard.Toml.Document

/-!
# Settings

The settings of a server come from four sources, the later ones over the earlier ones: defaults, a
file, variables of the environment, and the command line, which can give the port.

* The variables are laid over the file first, and what comes of both over the defaults: what a
  variable replaces in the file replaces nothing in the defaults.
* A variable counts if its name begins with `variableStem`, in any case; in the rest of the name a
  double underscore goes from a table to its member.
* Settings that nobody asks for are left alone.
* The command line takes at most one argument (`Settings.applyArgs`).
-/

namespace Blackboard

/-- Where the server listens. -/
structure ServerSettings where
  host : String
  port : UInt16
deriving DecidableEq, Repr

/-- What can be set. -/
structure Settings where
  server : ServerSettings
  parseCacheCapacity : Nat
  /-- What is logged. -/
  log : String
deriving DecidableEq, Repr

namespace Settings

/-! ## 1. Sources -/

/-- The defaults as a tree. -/
def defaultTree : Setting :=
  .table [("server", .table [("host", .text "127.0.0.1"), ("port", .integer 8080)]),
    ("parse_cache_capacity", .integer defaultCacheCapacity), ("log", .text "info")]

/-- What the names of variables that count begin with. -/
def variableStem : String := "roomdb_"

/-- The setting that the value of a variable is: a truth value, an integer, a number, or else a
    text. -/
def ofVariable (value : String) : Setting :=
  match value.toLower with
  | "true" => .bool true
  | "false" => .bool false
  | _ =>
    match (intOfText? value).filter fitsSigned, Binary64.ofText? value with
    | some i, _ => .integer i
    | none, some x => .real x
    | none, none => .text value

/-- The key that the name of a variable is, if it counts. -/
def keyOfVariable? (name : String) : Option String :=
  let name := name.toLower.toList
  let stem := variableStem.toList
  if stem.isPrefixOf name then
    some ((String.ofList (name.drop stem.length)).replace "__" ".")
  else none

/-- The settings that variables give; of two with the same key the later one counts. -/
def ofVariables (vars : List (String × String)) : List (String × Setting) :=
  (OrderedMap.ofList (vars.filterMap fun (name, value) =>
    (keyOfVariable? name).map fun key => (key, ofVariable value))).entries

/-! ## 2. Loading -/

/-- Reads where the server listens: from a table, or from a list of the host and the port. -/
def readServer? (s : Setting) : Option ServerSettings := do
  let (host, port) ←
    match s with
    | .table _ => (·, ·) <$> s.get? "host" <*> s.get? "port"
    | .list (host :: port :: _) => some (host, port)
    | _ => none
  return ⟨← host.asText?, UInt16.ofNat (← port.asNatUpTo? 0xFFFF)⟩

/-- Reads settings from a tree. -/
def ofTree? (root : Setting) : Option Settings := do
  return {
    server := ← readServer? (← root.get? "server")
    parseCacheCapacity := ← (← root.get? "parse_cache_capacity").asNat?
    log := ← (← root.get? "log").asText? }

/-- The settings of a text of a file, if there is one, and of variables. -/
def load (file : Option String) (vars : List (String × String)) : Except Failure Settings :=
  let settings? := do
    let fromFile ← match file with
      | some text => Toml.ofText? text
      | none => some []
    let given := ((Setting.table []).layer fromFile).layer (ofVariables vars)
    ofTree? (defaultTree.layer given.members)
  match settings? with
  | some settings => .ok settings
  | none => .error (.config .unreadable)

/-! ## 3. The command line -/

/-- The port that an argument is. -/
def portOfArg? (arg : String) : Option UInt16 :=
  ((natOfText? arg).filter (· ≤ 0xFFFF)).map UInt16.ofNat

/-- Settings with the port of the command line, which has at most one argument. -/
def applyArgs (s : Settings) : List String → Except Failure Settings
  | [] => .ok s
  | [arg] =>
    match portOfArg? arg with
    | some port => .ok { s with server := { s.server with port } }
    | none => .error (.config .usage)
  | _ => .error (.config .usage)

/-- The address to listen at. -/
def address (s : Settings) : String := s.server.host ++ ":" ++ toString s.server.port

end Settings

end Blackboard
