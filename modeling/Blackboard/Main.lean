import Blackboard.Board
import Blackboard.Settings.Basic

/-!
# The command line

The program serves an empty board. Settings come from a file in the working directory, if there is
one, and from the environment, and the port may come from the command line.

Requests are read from standard input, one on a line: the method, the address, and a JSON body if
there is one. The answer is the status and the body, on one line.
-/

namespace Blackboard

/-- The variables of the environment that can be set. -/
def variableNames : List String :=
  ["ROOMDB_SERVER__HOST", "ROOMDB_SERVER__PORT", "ROOMDB_PARSE_CACHE_CAPACITY", "ROOMDB_LOG"]

/-- The variables that are set. -/
def readVariables : IO (List (String × String)) :=
  variableNames.filterMapM fun name => do
    return (← IO.getEnv name).map fun value => (name, value)

/-- The text of the file of settings, if there is one. -/
def readSettingsFile : IO (Option String) := do
  try return some (← IO.FS.readFile "roomdb.toml") catch _ => return none

/-- The message of a line: its first word, its second word, and the rest. -/
def messageOfLine (line : String) : Http.Message :=
  let cs := trimBlanks line.toList
  let method := cs.takeWhile fun c => !isBlank c
  let rest := trimBlanks (cs.drop method.length)
  let address := rest.takeWhile fun c => !isBlank c
  let text := String.ofList (trimBlanks (rest.drop address.length))
  let body := if text.isEmpty then none else some text
  let contentType := body.map fun _ => "application/json"
  .ofAddress (String.ofList method) (String.ofList address) contentType body

/-- Serves the requests of the input one after another. -/
partial def serveLines (input output : IO.FS.Stream) (b : Board) : IO Unit := do
  let line ← input.getLine
  if line.isEmpty then return
  let (answer, b) := b.serve (messageOfLine line)
  output.putStrLn (Http.statusText answer.status ++ " " ++ answer.body.getD "")
  output.flush
  serveLines input output b

end Blackboard

open Blackboard in
/-- Reads the settings and serves; arguments that are not as the usage text says end the program. -/
def main (args : List String) : IO UInt32 := do
  match Settings.load (← readSettingsFile) (← readVariables) with
  | .error failure =>
    IO.eprintln failure.message
    return 1
  | .ok settings =>
  match settings.applyArgs args with
  | .error _ =>
    IO.eprintln usageText
    return 1
  | .ok settings =>
    IO.eprintln ("serving facts at " ++ settings.address)
    serveLines (← IO.getStdin) (← IO.getStdout) (.empty settings.parseCacheCapacity)
    return 0
