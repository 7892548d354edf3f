import EntityCursor.Binary64.Basic

/-!
The decimal text of floating-point numbers. A number is written with the fewest digits that read
back as the same number, and among those with the digits nearest to it. Numbers from `1e-5` up to
below `1e16` are written with a point, all others with an exponent, and every text shows by a point
or an exponent that it is no whole number.

The fewest digits are found on decimal grids, from coarse to fine: the first grid with a point in
the interval of the reals that round to the number is the coarsest one, and if a grid has such a
point then one of the two neighbours of the number on it is one.
-/

namespace EntityCursor

namespace Binary64

/-- `digits * 10 ^ scale`. -/
structure Decimal where
  digits : Nat
  scale : Int
deriving DecidableEq, Repr

/-- The reals that round to a positive number, as multiples of `above / below`: all that lie between
`low` and `high`, with the ends if `closed`. -/
structure RoundingInterval where
  low : Nat
  middle : Nat
  high : Nat
  above : Nat
  below : Nat
  closed : Bool

/-- The unit is a quarter of the distance to the next number up. The next number down is twice as
close just above a power of two. -/
def roundingInterval (number : Binary64) : RoundingInterval :=
  let significand := number.significand
  let narrow := significand = Nat.pow 2 52 ∧ -1074 < number.exponent
  let exponent := number.exponent - 2
  { low := 4 * significand - (if narrow then 1 else 2)
    middle := 4 * significand
    high := 4 * significand + 2
    above := if 0 ≤ exponent then Nat.pow 2 exponent.toNat else 1
    below := if 0 ≤ exponent then 1 else Nat.pow 2 (-exponent).toNat
    closed := significand % 2 = 0 }

namespace RoundingInterval

def unitOver (interval : RoundingInterval) (scale : Int) : Nat × Nat :=
  if 0 ≤ scale then (interval.above, interval.below * Nat.pow 10 scale.toNat)
  else (interval.above * Nat.pow 10 (-scale).toNat, interval.below)

def covers (interval : RoundingInterval) (digits : Nat) (scale : Int) : Bool :=
  let (above, below) := interval.unitOver scale
  let point := digits * below
  let low := interval.low * above
  let high := interval.high * above
  if interval.closed then low ≤ point && point ≤ high else low < point && point < high

def nearest? (interval : RoundingInterval) (scale : Int) : Option Nat :=
  let (above, below) := interval.unitOver scale
  let number := interval.middle * above
  let lower := number / below
  let upper := lower + 1
  match interval.covers lower scale, interval.covers upper scale with
  | true, true =>
      let twice := 2 * (number % below)
      if twice < below ∨ (twice = below ∧ lower % 2 = 0) then some lower else some upper
  | true, false => some lower
  | false, true => some upper
  | false, false => none

/-- The first of `count` grids, from `10 ^ scale` down, with a point in the interval. -/
def firstGrid (interval : RoundingInterval) : (count : Nat) → (scale : Int) → Decimal
  | 0, scale => ⟨0, scale⟩
  | count + 1, scale =>
      match interval.nearest? scale with
      | some digits => ⟨digits, scale⟩
      | none => interval.firstGrid count (scale - 1)

end RoundingInterval

/-- The fewest digits that read back as a finite number other than zero. The search begins above
the number and has reached seventeen digits when it ends. -/
def shortest (number : Binary64) : Decimal :=
  let bound := (number.significand.log2 : Int) + number.exponent + 1
  number.roundingInterval.firstGrid 22 (bound * 30103 / 100000 + 2)

def Decimal.text (decimal : Decimal) : List Char :=
  let digits := Nat.toDigits 10 decimal.digits
  let point := digits.length + decimal.scale
  if 0 ≤ decimal.scale ∧ point ≤ 16 then
    digits ++ List.replicate decimal.scale.toNat '0' ++ ['.', '0']
  else if 0 < point ∧ point ≤ 16 then
    digits.take point.toNat ++ ['.'] ++ digits.drop point.toNat
  else if -5 < point ∧ point ≤ 0 then
    ['0', '.'] ++ List.replicate (-point).toNat '0' ++ digits
  else
    let exponent := point - 1
    let fraction := if digits.length = 1 then [] else '.' :: digits.drop 1
    digits.take 1 ++ fraction ++ ['e', if exponent < 0 then '-' else '+'] ++
      Nat.toDigits 10 exponent.natAbs

def text (number : Binary64) : List Char :=
  let sign := if number.isNegative then ['-'] else []
  if number.isZero then sign ++ ['0', '.', '0'] else sign ++ number.shortest.text

end Binary64

end EntityCursor
