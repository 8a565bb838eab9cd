import Blackboard.Json.Token

/-!
# Quoted strings of TOML

Four kinds of strings: with escapes or without (`basic` and `literal`), on one line or on several
lines. A string on several lines drops a line end right after its opening quotes, keeps all other
line ends as they are written, and ends with the last three of at most five quotes in a row; a
backslash at the end of a line takes away the line end and all blanks behind it.

A line ends with a line feed, which may have a carriage return in front of it.

Every reader here starts behind the opening quotes and answers with the string and with what follows
the closing quotes. The fuel is the number of characters.
-/

namespace Blackboard.Toml

/-- A reader of something at the front of a text: what it read and what follows. -/
abbrev Step (α : Type) := List Char → Option (α × List Char)

/-- The character of a number, if there is one. -/
def charOfCode? (n : Nat) : Option Char :=
  if n < 0xD800 || (0xE000 ≤ n && n < 0x110000) then some (Char.ofNat n) else none

/-- A character by its number in the given number of hexadecimal digits. -/
def codeAt? (width : Nat) : Step Char := fun cs => do
  let digits := cs.take width
  if digits.length < width then none
  let c ← charOfCode? (← Json.hexValues? digits)
  return (c, cs.drop width)

/-- The character of an escape, behind the backslash. -/
def escapeAt? : Step Char
  | 'b' :: cs => some ('\x08', cs)
  | 't' :: cs => some ('\t', cs)
  | 'n' :: cs => some ('\n', cs)
  | 'e' :: cs => some ('\x1b', cs)
  | 'f' :: cs => some ('\x0c', cs)
  | 'r' :: cs => some ('\r', cs)
  | '"' :: cs => some ('"', cs)
  | '\\' :: cs => some ('\\', cs)
  | 'x' :: cs => codeAt? 2 cs
  | 'u' :: cs => codeAt? 4 cs
  | 'U' :: cs => codeAt? 8 cs
  | _ => none

/-- A blank within a line. -/
def isSpace (c : Char) : Bool := c == ' ' || c == '\t'

/-- The single quote. -/
def quote : Char := '\x27'

/-! ## 1. On one line -/

/-- A string with escapes. -/
def basicBody? : Nat → Step (List Char)
  | _, '"' :: cs => some ([], cs)
  | fuel + 1, '\\' :: cs => do
    let (c, cs) ← escapeAt? cs
    let (body, rest) ← basicBody? fuel cs
    return (c :: body, rest)
  | fuel + 1, c :: cs => do
    if c = '\n' then none
    let (body, rest) ← basicBody? fuel cs
    return (c :: body, rest)
  | _, _ => none

/-- A string without escapes. -/
def literalBody? : Step (List Char) := fun cs =>
  let body := cs.takeWhile fun c => c != quote && c != '\n'
  match cs.drop body.length with
  | c :: rest => if c = quote then some (body, rest) else none
  | [] => none

/-! ## 2. On several lines -/

/-- The end of a string on several lines: three quotes, in front of which up to two more belong to
    the string. -/
def longEnd? (q : Char) : Step (List Char) := fun cs =>
  let quotes := (cs.takeWhile (· == q)).length
  if quotes < 3 then none
  else
    let inside := min 2 (quotes - 3)
    some (List.replicate inside q, cs.drop (3 + inside))

/-- What follows a line end. -/
def afterLineEnd? : List Char → Option (List Char)
  | '\n' :: cs => some cs
  | '\r' :: '\n' :: cs => some cs
  | _ => none

/-- Whether a character is a blank or belongs to a line end. -/
def isGap (c : Char) : Bool := isSpace c || c == '\n' || c == '\r'

/-- What follows a backslash at the end of a line. -/
def continuation? (cs : List Char) : Option (List Char) :=
  (afterLineEnd? (cs.dropWhile isSpace)).map fun rest => rest.dropWhile isGap

/-- A string on several lines; escapes are read if they are allowed. -/
def longBody? (q : Char) (escapes : Bool) : Nat → Step (List Char)
  | 0, _ => none
  | fuel + 1, cs =>
    match longEnd? q cs, cs with
    | some found, _ => some found
    | none, '\\' :: cs =>
      if escapes then
        match continuation? cs with
        | some cs => longBody? q escapes fuel cs
        | none => do
          let (c, cs) ← escapeAt? cs
          let (body, rest) ← longBody? q escapes fuel cs
          return (c :: body, rest)
      else do
        let (body, rest) ← longBody? q escapes fuel cs
        return ('\\' :: body, rest)
    | none, c :: cs => do
      let (body, rest) ← longBody? q escapes fuel cs
      return (c :: body, rest)
    | none, [] => none

/-- A text without a line end at its front. -/
def dropLineEnd (cs : List Char) : List Char := (afterLineEnd? cs).getD cs

/-! ## 3. Any of them -/

/-- A string of one line with its opening quote. -/
def shortString? : Step String
  | '"' :: cs => (basicBody? (cs.length + 1) cs).map fun (body, rest) => (String.ofList body, rest)
  | '\x27' :: cs => (literalBody? cs).map fun (body, rest) => (String.ofList body, rest)
  | _ => none

/-- A string with its opening quotes. -/
def string? : Step String
  | '"' :: '"' :: '"' :: cs =>
    let cs := dropLineEnd cs
    (longBody? '"' true (cs.length + 1) cs).map fun (body, rest) => (String.ofList body, rest)
  | '\x27' :: '\x27' :: '\x27' :: cs =>
    let cs := dropLineEnd cs
    (longBody? quote false (cs.length + 1) cs).map fun (body, rest) => (String.ofList body, rest)
  | cs => shortString? cs

end Blackboard.Toml
