/-!
# Escapes in quoted text

A quoted string writes a line feed as `\n` and a tab as `\t`. These two are the only escapes:
every other backslash stands for itself, so a backslash in front of `n` or `t` cannot be written.
-/

namespace Blackboard

/-- Writes line feeds and tabs as escapes and all else as it is. -/
def escape : List Char → List Char
  | [] => []
  | '\n' :: cs => '\\' :: 'n' :: escape cs
  | '\t' :: cs => '\\' :: 't' :: escape cs
  | c :: cs => c :: escape cs

/-- Reads the two escapes and keeps all else as it is. -/
def unescape : List Char → List Char
  | [] => []
  | '\\' :: 'n' :: cs => '\n' :: unescape cs
  | '\\' :: 't' :: cs => '\t' :: unescape cs
  | c :: cs => c :: unescape cs

end Blackboard
