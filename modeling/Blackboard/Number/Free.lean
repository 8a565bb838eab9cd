import Blackboard.Number.Numeral

/-!
# Numbers in free spelling

Outside of sentences a number may be spelled more freely: a point may stand at either end of the
digits, and infinities and NaN have names, in any case. What is read is the whole text.
-/

namespace Blackboard

/-- A number as a free spelling gives it, before it is rounded. -/
inductive FreeNumber where
  | decimal (negative : Bool) (d : Decimal)
  | infinity (negative : Bool)
  | nan
deriving DecidableEq, Repr

namespace FreeNumber

/-- The digits of a mantissa: a whole part and a fraction, not both empty. -/
def mantissa (cs : List Char) : List Char × List Char × List Char :=
  let whole := cs.takeWhile Char.isDigit
  match cs.drop whole.length with
  | '.' :: rest =>
    let fraction := rest.takeWhile Char.isDigit
    (whole, fraction, rest.drop fraction.length)
  | rest => (whole, [], rest)

/-- The decimal that a text without a sign spells. -/
def decimal? (cs : List Char) : Option Decimal :=
  let (whole, fraction, rest) := mantissa cs
  if whole.isEmpty && fraction.isEmpty then none
  else
    let digits := digitsValue (whole ++ fraction)
    if rest.isEmpty then some ⟨digits, -fraction.length⟩
    else
      match Exponent.scan? rest with
      | some e =>
        if e.chars.length = rest.length then some ⟨digits, e.value - fraction.length⟩ else none
      | none => none

/-- The number that a text spells. -/
def ofChars? (cs : List Char) : Option FreeNumber :=
  let (sign, rest) := Sign.scan cs
  let negative := sign == some .minus
  let name := rest.map Char.toLower
  if name = ['i', 'n', 'f'] || name = ['i', 'n', 'f', 'i', 'n', 'i', 't', 'y'] then
    some (infinity negative)
  else if name = ['n', 'a', 'n'] then some nan
  else (decimal? rest).map (decimal negative)

/-- The nearest number of 64 bits. -/
def toBinary64 : FreeNumber → Binary64
  | decimal negative d => .ofDecimal negative d
  | infinity negative => .infinity negative
  | nan => .nan

/-- The nearest number of 32 bits, as a number of 64 bits. -/
def toSingle : FreeNumber → Binary64
  | decimal negative d => .ofDecimalSingle negative d
  | infinity negative => .infinity negative
  | nan => .nan

end FreeNumber

/-- The number of 64 bits that a text spells. -/
def Binary64.ofText? (text : String) : Option Binary64 :=
  (FreeNumber.ofChars? text.toList).map FreeNumber.toBinary64

/-- The number of 32 bits that a text spells, as a number of 64 bits. -/
def Binary64.singleOfText? (text : String) : Option Binary64 :=
  (FreeNumber.ofChars? text.toList).map FreeNumber.toSingle

/-- The natural number that a text spells: digits, with or without a plus sign. -/
def natOfText? (text : String) : Option Nat :=
  let (sign, digits) := Sign.scan text.toList
  if sign = some .minus || digits.isEmpty || !digits.all Char.isDigit then none
  else some (digitsValue digits)

/-- Whether an integer fits into 64 bits with a sign. -/
def fitsSigned (i : Int) : Bool := -0x8000000000000000 ≤ i && i < 0x8000000000000000

/-- The integer that a text spells: digits, with or without a sign. -/
def intOfText? (text : String) : Option Int :=
  let (sign, digits) := Sign.scan text.toList
  if digits.isEmpty || !digits.all Char.isDigit then none
  else if sign = some .minus then some (-digitsValue digits)
  else some (digitsValue digits)

end Blackboard
