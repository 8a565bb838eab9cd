/-!
# Binary64: the numbers that facts hold

A number is a binary floating-point number of 64 bits, kept exactly and without any machine
arithmetic: this library only reads numbers, compares them and writes them, so every step is a
computation on natural numbers.

* A finite number is a sign and a RANK. The magnitudes, counted upwards from zero, have the ranks
  `0, 1, 2, …`, so the order of the ranks is the order of the magnitudes (`Binary64.units`).
* All magnitudes are multiples of the least positive one; `units` says which multiple, and
  `rankOfUnits` is its inverse.
* `roundUnits` takes a positive fraction to the nearest multiple that has few enough binary
  digits; a tie goes to the even one.
* `Binary64.equal` is the equality of the numbers: the two zeros are equal, a NaN equals nothing.
-/

namespace Blackboard

/-! ## 1. The numbers -/

/-- The number of finite magnitudes, which is the rank that infinity would have. -/
def Binary64.rankLimit : Nat := 0x7FF0000000000000

/-- A binary floating-point number of 64 bits. -/
inductive Binary64 where
  /-- A finite number by its sign and the rank of its magnitude. -/
  | finite (negative : Bool) (rank : Fin Binary64.rankLimit)
  /-- One of the two infinities. -/
  | infinity (negative : Bool)
  /-- What is not a number. -/
  | nan
deriving DecidableEq, Repr

namespace Binary64

/-- The number of a given sign and rank; a rank past the last finite one is infinity. -/
def ofRank (negative : Bool) (rank : Nat) : Binary64 :=
  if h : rank < rankLimit then .finite negative ⟨rank, h⟩ else .infinity negative

/-- The positive zero. -/
def zero : Binary64 := ofRank false 0

instance : Inhabited Binary64 := ⟨zero⟩

/-- Neither an infinity nor a NaN. -/
def isFinite : Binary64 → Bool
  | .finite _ _ => true
  | _ => false

/-- One of the two zeros. -/
def isZero : Binary64 → Bool
  | .finite _ rank => rank.val == 0
  | _ => false

/-- Equality of numbers: the zeros of both signs are equal and a NaN is not equal to itself. -/
def equal : Binary64 → Binary64 → Bool
  | .finite s₁ r₁, .finite s₂ r₂ => r₁ == r₂ && (s₁ == s₂ || r₁.val == 0)
  | .infinity s₁, .infinity s₂ => s₁ == s₂
  | _, _ => false

/-! ## 2. Ranks and magnitudes -/

/-- The binary exponent of the least positive magnitude, negated: all magnitudes are multiples
    of `2 ^ (-1074)`. -/
def unitExponent : Nat := 1074

/-- The number of magnitudes from one power of two up to the next: the 52nd power of two. -/
def stride : Nat := 0x10000000000000

/-- The magnitude of a rank, as a multiple of the least positive one. -/
def units (rank : Nat) : Nat :=
  if rank < 2 * stride then rank
  else (stride + rank % stride) <<< (rank / stride - 1)

/-- The rank of a multiple that has at most 53 binary digits before its trailing zeros. -/
def rankOfUnits (n : Nat) : Nat :=
  if n < 2 * stride then n
  else (n.log2 - 52) * stride + n >>> (n.log2 - 52)

end Binary64

/-! ## 3. Rounding -/

/-- The natural number nearest to `num / den` among those with at most `precision` binary digits
    before their trailing zeros; of two equally near ones, the one whose last digit is even. -/
def roundUnits (precision num den : Nat) : Nat :=
  let shift := (num / den).log2 + 1 - precision
  let step := den <<< shift
  let low := num / step
  let rest := num % step
  let up := step < 2 * rest || (2 * rest == step && low % 2 == 1)
  (if up then low + 1 else low) <<< shift

namespace Binary64

/-- The rank of the magnitude nearest to `num / den`. -/
def nearestRank (num den : Nat) : Nat :=
  rankOfUnits (roundUnits 53 (num <<< unitExponent) den)

/-- The number nearest to a natural number. -/
def ofNat (n : Nat) : Binary64 :=
  ofRank false (nearestRank n 1)

/-- The number nearest to an integer. -/
def ofInt (n : Int) : Binary64 :=
  ofRank (n < 0) (nearestRank n.natAbs 1)

/-- The nearest natural number, halves rounded upwards; negative numbers and a NaN give zero, and
    what exceeds `limit` gives `limit`. -/
def toNatWithin (limit : Nat) : Binary64 → Nat
  | .finite true _ | .infinity true | .nan => 0
  | .infinity false => limit
  | .finite false rank => min limit ((2 * units rank + 1 <<< unitExponent) >>> (unitExponent + 1))

end Binary64

end Blackboard
