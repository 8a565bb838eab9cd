import Blackboard.Number.Binary64

/-!
# Decimals: how numbers are written and read

A `Decimal` is `digits · 10 ^ exponent`.

* `Decimal.rank` takes a decimal to the rank of the nearest binary64 magnitude, a tie going to the
  even one (`Binary64.ofDecimal`).
* `Binary64.shortest` goes the other way: it walks over the decimal grids from coarse to fine and
  stops at the first grid on which one of the two neighbours of the magnitude reads back as it; if
  both do, the nearer one is taken, and `Tie` decides between two equally near ones. The exact
  expansion of the magnitude stands behind the walk, so what is returned always reads back.
* Two layouts write a decimal: `Decimal.plain` never uses an exponent, `Decimal.scaled` uses one
  for very large and very small numbers and marks every number as a fraction. In the first a tie
  goes up, in the second to the even digit.
-/

namespace Blackboard

/-- The non-negative number `digits · 10 ^ exponent`. -/
structure Decimal where
  digits : Nat
  exponent : Int
deriving DecidableEq, Repr

namespace Decimal

/-! ## 1. Reading -/

/-- The power of ten of a non-negative exponent; of a negative one, one. -/
def tenTo (e : Int) : Nat := Nat.pow 10 e.toNat

/-- Larger than every finite magnitude, whatever its digits are, unless it is zero. -/
def isHuge (d : Decimal) : Bool :=
  d.digits != 0 && 400 < d.exponent

/-- Smaller than half of the least positive magnitude: its digits make up for no more than as many
    tenfolds as they have binary digits. -/
def isTiny (d : Decimal) : Bool :=
  d.exponent + d.digits.log2 + 1 < -400

/-- The rank of the magnitude nearest to a decimal. The two tests keep absurd exponents away from
    the exact computation and do not change what it gives. -/
def rank (d : Decimal) : Nat :=
  if d.digits = 0 || d.isTiny then 0
  else if d.isHuge then Binary64.rankLimit
  else Binary64.nearestRank (d.digits * tenTo d.exponent) (tenTo (-d.exponent))

/-- The rank, in binary64, of the nearest magnitude that a number of 32 bits can have. -/
def singleRank (d : Decimal) : Nat :=
  if d.digits = 0 || d.isTiny then 0
  else if d.isHuge then Binary64.rankLimit
  else
    let n := roundUnits 24 ((d.digits * tenTo d.exponent) <<< 149) (tenTo (-d.exponent))
    if n < 1 <<< 277 then Binary64.rankOfUnits (n <<< (Binary64.unitExponent - 149))
    else Binary64.rankLimit

end Decimal

/-- The number nearest to a signed decimal; one that is too large becomes an infinity. -/
def Binary64.ofDecimal (negative : Bool) (d : Decimal) : Binary64 :=
  .ofRank negative d.rank

/-- The number of 32 bits nearest to a signed decimal, as a number of 64 bits. -/
def Binary64.ofDecimalSingle (negative : Bool) (d : Decimal) : Binary64 :=
  .ofRank negative d.singleRank

/-! ## 2. Writing the fewest digits -/

namespace Binary64

/-- Which of two equally near neighbours is taken. -/
inductive Tie where
  /-- The larger one. -/
  | up
  /-- The one whose last digit is even. -/
  | even
deriving DecidableEq, Repr

/-- Whether the smaller of two equally near neighbours is taken. -/
def Tie.keepsBelow (below : Nat) : Tie → Bool
  | up => false
  | even => below % 2 == 0

/-- The neighbour of a magnitude on the grid of the multiples of `10 ^ grid` that reads back as
    the magnitude; the nearer one if both do. -/
def onGrid? (tie : Tie) (rank : Nat) (grid : Int) : Option Decimal :=
  let num := units rank * Decimal.tenTo (-grid)
  let den := Decimal.tenTo grid <<< unitExponent
  let below : Decimal := ⟨num / den, grid⟩
  let above : Decimal := ⟨num / den + 1, grid⟩
  let belowHits := below.rank == rank
  let aboveHits := above.rank == rank
  let rest := 2 * (num % den)
  let belowNearer := rest < den || (rest == den && tie.keepsBelow below.digits)
  if belowHits && (!aboveHits || belowNearer) then some below
  else if aboveHits then some above
  else none

/-- The exact decimal expansion of a magnitude. -/
def exact (rank : Nat) : Decimal :=
  ⟨units rank * Nat.pow 5 unitExponent, -unitExponent⟩

/-- A power of ten above the magnitude and at most two too large, from its binary length. -/
def gridAbove (rank : Nat) : Int :=
  (((units rank).log2 : Int) - unitExponent) * 30103 / 100000 + 2

/-- The first hit on the grids `grid, grid - 1, …`, at most `steps` of them. -/
def firstOnGrids (tie : Tie) (rank : Nat) : Nat → Int → Decimal
  | 0, _ => exact rank
  | steps + 1, grid =>
    match onGrid? tie rank grid with
    | some d => d
    | none => firstOnGrids tie rank steps (grid - 1)

/-- A decimal with the fewest digits that reads back as the magnitude of the given rank. -/
def shortest (tie : Tie) (rank : Nat) : Decimal :=
  if rank = 0 then ⟨0, 0⟩ else firstOnGrids tie rank 20 (gridAbove rank)

end Binary64

/-! ## 3. Layouts -/

namespace Decimal

/-- The decimal digits of a natural number. -/
def digitChars (n : Nat) : List Char := Nat.toDigits 10 n

/-- Digits with a decimal point before the last `places` of them, padded with zeros on the left so
    that one stands before the point. -/
def pointed (digits : List Char) (places : Nat) : List Char :=
  let padded := List.replicate (places + 1 - digits.length) '0' ++ digits
  padded.take (padded.length - places) ++ '.' :: padded.drop (padded.length - places)

/-- Without an exponent, and with a point only if there are digits after it. -/
def plain (d : Decimal) : List Char :=
  if 0 ≤ d.exponent then digitChars d.digits ++ List.replicate d.exponent.toNat '0'
  else pointed (digitChars d.digits) (-d.exponent).toNat

/-- An exponent with its sign. -/
def signedExponent (e : Int) : List Char :=
  (if e < 0 then '-' else '+') :: digitChars e.natAbs

/-- As a fraction: positional from `10 ^ (-5)` up to below `10 ^ 16`, with an exponent elsewhere. -/
def scaled (d : Decimal) : List Char :=
  let ds := digitChars d.digits
  let point : Int := ds.length + d.exponent
  if -5 < point && point ≤ 16 then
    if 0 ≤ d.exponent then ds ++ List.replicate d.exponent.toNat '0' ++ ['.', '0']
    else pointed ds (-d.exponent).toNat
  else
    match ds with
    | [] => []
    | [c] => c :: 'e' :: signedExponent (point - 1)
    | c :: cs => c :: '.' :: cs ++ 'e' :: signedExponent (point - 1)

end Decimal

namespace Binary64

/-- A sign in front of the text of a magnitude. -/
def signed (negative : Bool) (text : List Char) : List Char :=
  if negative then '-' :: text else text

/-- The text of a number without an exponent. -/
def plainChars : Binary64 → List Char
  | .finite negative rank => signed negative (shortest .up rank).plain
  | .infinity negative => signed negative ['i', 'n', 'f']
  | .nan => ['N', 'a', 'N']

/-- The text of a finite number as a fraction; other numbers have none. -/
def scaledChars? : Binary64 → Option (List Char)
  | .finite negative rank => some (signed negative (shortest .even rank).scaled)
  | _ => none

end Binary64

end Blackboard
