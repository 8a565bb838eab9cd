import Blackboard.Number.Decimal

/-!
# Numerals: numbers as they are spelled in a text

A numeral is an optional sign, decimal digits, an optional fraction and an optional exponent:
`40`, `-2.5`, `+3`, `25E-1`.

* `Numeral.scan?` reads the longest numeral at the front of a text. A point or an exponent mark
  belongs to the numeral only if a digit follows it, so `1.` is the numeral `1` and a point.
* `Numeral.chars` is the spelling: what was read is a beginning of the text, character by
  character.
* `Numeral.value` is the nearest number; too large a numeral has an infinite value.
-/

namespace Blackboard

/-- The sign that a numeral or an exponent is written with. -/
inductive Sign where
  | plus
  | minus
deriving DecidableEq, Repr

namespace Sign

/-- The character of a sign. -/
def char : Sign → Char
  | plus => '+'
  | minus => '-'

/-- The sign that a character stands for. -/
def ofChar? : Char → Option Sign
  | '+' => some plus
  | '-' => some minus
  | _ => none

/-- The spelling of an optional sign. -/
def chars (s : Option Sign) : List Char := s.toList.map char

/-- A sign at the front of a text, if there is one, and what follows it. -/
def scan : List Char → Option Sign × List Char
  | [] => (none, [])
  | c :: cs =>
    match ofChar? c with
    | some s => (some s, cs)
    | none => (none, c :: cs)

end Sign

/-- The value of a row of decimal digits. -/
def digitsValue (cs : List Char) : Nat := Nat.ofDigitChars 10 cs 0

/-- The exponent of a numeral as it is spelled. -/
structure Exponent where
  mark : Char
  sign : Option Sign
  digits : List Char
deriving DecidableEq, Repr

namespace Exponent

/-- The spelling of an exponent. -/
def chars (e : Exponent) : List Char :=
  e.mark :: Sign.chars e.sign ++ e.digits

/-- The value of an exponent. -/
def value (e : Exponent) : Int :=
  if e.sign = some .minus then -(digitsValue e.digits : Int) else digitsValue e.digits

/-- An exponent at the front of a text: a mark, an optional sign and digits. -/
def scan? : List Char → Option Exponent
  | [] => none
  | c :: cs =>
    if c = 'e' || c = 'E' then
      let (sign, rest) := Sign.scan cs
      let digits := rest.takeWhile Char.isDigit
      if digits.isEmpty then none else some ⟨c, sign, digits⟩
    else none

end Exponent

/-- A number as it is spelled. -/
structure Numeral where
  sign : Option Sign
  whole : List Char
  fraction : List Char
  exponent : Option Exponent
deriving DecidableEq, Repr

namespace Numeral

/-- The spelling of a fraction: nothing if it has no digits. -/
def fractionChars : List Char → List Char
  | [] => []
  | ds => '.' :: ds

/-- The spelling of a numeral. -/
def chars (n : Numeral) : List Char :=
  Sign.chars n.sign ++ n.whole ++ fractionChars n.fraction ++
    (n.exponent.map Exponent.chars).getD []

/-- The digits after a point at the front of a text. -/
def fractionDigits : List Char → List Char
  | '.' :: cs => cs.takeWhile Char.isDigit
  | _ => []

/-- The longest numeral at the front of a text. -/
def scan? (text : List Char) : Option Numeral :=
  let (sign, unsigned) := Sign.scan text
  let whole := unsigned.takeWhile Char.isDigit
  if whole.isEmpty then none
  else
    let rest := unsigned.drop whole.length
    let fraction := fractionDigits rest
    some ⟨sign, whole, fraction, Exponent.scan? (rest.drop (fractionChars fraction).length)⟩

/-- Whether the numeral is written with a minus sign. -/
def isNegative (n : Numeral) : Bool := n.sign == some .minus

/-- The magnitude that a numeral spells. -/
def decimal (n : Numeral) : Decimal :=
  ⟨digitsValue (n.whole ++ n.fraction),
   ((n.exponent.map Exponent.value).getD 0) - n.fraction.length⟩

/-- The number nearest to what a numeral spells. -/
def value (n : Numeral) : Binary64 := .ofDecimal n.isNegative n.decimal

/-- Neither a fraction nor an exponent. -/
def isInteger (n : Numeral) : Bool := n.fraction.isEmpty && n.exponent.isNone

/-- The integer that a numeral without fraction and exponent spells. -/
def integer (n : Numeral) : Int :=
  if n.isNegative then -(digitsValue n.whole : Int) else digitsValue n.whole

end Numeral

end Blackboard
