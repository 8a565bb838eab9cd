import Blackboard.Number.Numeral

/-!
# Dates and times of TOML

A moment is a date, a time of day, or a date and a time with or without an offset. A time need not
give its seconds. A moment stands for its own text in a normal form: a `T` between date and time, a
`Z` in upper case, and of a fraction of a second at most nine digits without zeros at their end, but
one digit at least.
-/

namespace Blackboard.Toml

/-- The number of days of a month. -/
def daysIn (year month : Nat) : Nat :=
  if month = 2 then
    if year % 4 = 0 && (year % 100 != 0 || year % 400 == 0) then 29 else 28
  else if month = 4 || month = 6 || month = 9 || month = 11 then 30
  else 31

/-- A number of so many digits within bounds: its digits and what follows. -/
def field? (width low high : Nat) (cs : List Char) : Option (List Char × List Char) :=
  let digits := cs.take width
  let n := digitsValue digits
  if digits.length = width && digits.all Char.isDigit && low ≤ n && n ≤ high then
    some (digits, cs.drop width)
  else none

/-- What follows a character, if the text begins with it. -/
def after? (c : Char) : List Char → Option (List Char)
  | c' :: cs => if c = c' then some cs else none
  | [] => none

/-- A date and what follows. -/
def date? (cs : List Char) : Option (List Char × List Char) := do
  let (y, cs) ← field? 4 0 9999 cs
  let (m, cs) ← field? 2 1 12 (← after? '-' cs)
  let (d, cs) ← field? 2 1 (daysIn (digitsValue y) (digitsValue m)) (← after? '-' cs)
  return (y ++ '-' :: m ++ '-' :: d, cs)

/-- The normal form of a fraction of a second. -/
def fraction (digits : List Char) : List Char :=
  match ((digits.take 9).reverse.dropWhile (· == '0')).reverse with
  | [] => ['.', '0']
  | kept => '.' :: kept

/-- The seconds of a time, with a fraction or without one, and what follows. -/
def seconds? (cs : List Char) : Option (List Char × List Char) := do
  let (s, cs) ← field? 2 0 60 cs
  match cs with
  | '.' :: cs =>
    let digits := cs.takeWhile Char.isDigit
    if digits.isEmpty then none else return (s ++ fraction digits, cs.drop digits.length)
  | _ => return (s, cs)

/-- A time of day and what follows. -/
def time? (cs : List Char) : Option (List Char × List Char) := do
  let (h, cs) ← field? 2 0 23 cs
  let (m, cs) ← field? 2 0 59 (← after? ':' cs)
  let clock := h ++ ':' :: m
  match cs with
  | ':' :: cs =>
    let (s, cs) ← seconds? cs
    return (clock ++ ':' :: s, cs)
  | _ => return (clock, cs)

/-- An offset that ends the text. An offset of nothing is a positive one. -/
def offset? : List Char → Option (List Char)
  | [] => some []
  | ['Z'] | ['z'] => some ['Z']
  | c :: cs => do
    let sign ← Sign.ofChar? c
    let (h, cs) ← field? 2 0 23 cs
    let (m, cs) ← field? 2 0 59 (← after? ':' cs)
    if !cs.isEmpty then none
    let sign := if digitsValue (h ++ m) = 0 then Sign.plus else sign
    return sign.char :: h ++ ':' :: m

/-- Whether a character can stand between a date and a time. -/
def isDivider (c : Char) : Bool := c == 'T' || c == 't' || c == ' '

/-- The normal form of a moment. -/
def moment? (cs : List Char) : Option String :=
  match date? cs with
  | some (date, []) => some (String.ofList date)
  | some (date, c :: cs) =>
    if isDivider c then do
      let (time, cs) ← time? cs
      let offset ← offset? cs
      return String.ofList (date ++ 'T' :: time ++ offset)
    else none
  | none =>
    match time? cs with
    | some (time, []) => some (String.ofList time)
    | _ => none

end Blackboard.Toml
