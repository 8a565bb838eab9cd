import Blackboard.Number.Free
import Blackboard.Json.Token
import Blackboard.Settings.Tree
import Blackboard.Toml.Moment

/-!
# Bare scalars of TOML

Truth values, integers, fractions and moments are written without quotes. Digits may be grouped by
single underscores; integers fit into 64 bits with a sign, and fractions must not be too large.
-/

namespace Blackboard.Toml

/-- The digits of a row in which single underscores may stand between digits. -/
def ungroup? (isDigit : Char → Bool) : List Char → Option (List Char)
  | [] => none
  | [c] => if isDigit c then some [c] else none
  | c :: '_' :: cs => if isDigit c then (c :: ·) <$> ungroup? isDigit cs else none
  | c :: cs => if isDigit c then (c :: ·) <$> ungroup? isDigit cs else none

/-- The digits of a whole number: no zeros in front. -/
def wholeDigits? (cs : List Char) : Option (List Char) :=
  (ungroup? Char.isDigit cs).filter fun ds => ds.length = 1 || ds.head? != some '0'

/-- The value of digits to a base. -/
def valueInBase (base : Nat) (ds : List Char) : Nat :=
  ds.foldl (fun n c => base * n + (Json.hexValue? c).getD 0) 0

/-- Whether a character is a digit to a base. -/
def isDigitIn (base : Nat) (c : Char) : Bool := (Json.hexValue? c).any (· < base)

/-- A natural number to a base. -/
def based? (base : Nat) (cs : List Char) : Option Int :=
  (ungroup? (isDigitIn base) cs).map fun ds => valueInBase base ds

/-- An integer. -/
def integer? (cs : List Char) : Option Int :=
  let i? :=
    match cs with
    | '0' :: 'x' :: cs => based? 16 cs
    | '0' :: 'o' :: cs => based? 8 cs
    | '0' :: 'b' :: cs => based? 2 cs
    | _ =>
      let (sign, cs) := Sign.scan cs
      (wholeDigits? cs).map fun ds =>
        if sign == some Sign.minus then -digitsValue ds else digitsValue ds
  i?.filter fitsSigned

/-- Whether a text spells a fraction: with digits behind a point, an exponent, or both. -/
def isFraction (cs : List Char) : Bool :=
  let mantissa := cs.takeWhile fun c => c != 'e' && c != 'E'
  let whole := mantissa.takeWhile (· != '.')
  let pointed := mantissa.drop whole.length
  let exponent := cs.drop mantissa.length
  (wholeDigits? whole).isSome &&
    (pointed.isEmpty || (ungroup? Char.isDigit (pointed.drop 1)).isSome) &&
    (exponent.isEmpty || (ungroup? Char.isDigit (Sign.scan (exponent.drop 1)).2).isSome) &&
    !(pointed.isEmpty && exponent.isEmpty)

/-- A number that is not an integer, or one by its name. -/
def real? (cs : List Char) : Option Binary64 :=
  let (sign, body) := Sign.scan cs
  if body = ['i', 'n', 'f'] then some (.infinity (sign == some .minus))
  else if body = ['n', 'a', 'n'] then some .nan
  else if isFraction body then
    (Binary64.ofText? (String.ofList (cs.filter (· != '_')))).filter Binary64.isFinite
  else none

/-- Whether a character can stand in a bare scalar. -/
def isBareChar (c : Char) : Bool :=
  c.isAlphanum || c == '+' || c == '-' || c == '_' || c == '.' || c == ':'

/-- The characters of the bare scalar at the front of a text. A blank belongs to it between a date
    and a time. -/
def bareChars (cs : List Char) : List Char :=
  let word := cs.takeWhile isBareChar
  match date? word, cs.drop word.length with
  | some (_, []), ' ' :: d :: rest =>
    if d.isDigit then word ++ ' ' :: (d :: rest).takeWhile isBareChar else word
  | _, _ => word

/-- The setting that a bare scalar is. -/
def scalar? (word : List Char) : Option Setting :=
  if word = ['t', 'r', 'u', 'e'] then some (.bool true)
  else if word = ['f', 'a', 'l', 's', 'e'] then some (.bool false)
  else
    Setting.integer <$> integer? word <|> Setting.real <$> real? word <|>
      Setting.text <$> moment? word

end Blackboard.Toml
