/-!
Binary floating-point numbers of 64 bits. A number is its bit pattern; its sign, its significand and
its exponent are read off the pattern, and every operation is exact integer arithmetic followed by
one rounding. `compare` is the total order of bit patterns, under which every pattern has a place of
its own; `compare?` is the order of the numbers, which knows no order for the patterns that are no
number and does not tell the two zeros apart.
-/

namespace EntityCursor

structure Binary64 where
  bits : UInt64
deriving DecidableEq, Inhabited

namespace Binary64

/-- All bits below the sign, read as a natural number. Larger numbers have larger magnitudes. -/
def magnitude (number : Binary64) : Nat :=
  number.bits.toNat % Nat.pow 2 63

def isNegative (number : Binary64) : Bool :=
  Nat.pow 2 63 ≤ number.bits.toNat

def infinityMagnitude : Nat := 0x7FF * Nat.pow 2 52

def ofMagnitude (negative : Bool) (magnitude : Nat) : Binary64 :=
  ⟨UInt64.ofNat ((if negative then Nat.pow 2 63 else 0) + magnitude)⟩

def zero : Binary64 := ofMagnitude false 0
def infinity (negative : Bool) : Binary64 := ofMagnitude negative infinityMagnitude
def notANumber : Binary64 := ofMagnitude false (infinityMagnitude + Nat.pow 2 51)

def isNaN (number : Binary64) : Bool := infinityMagnitude < number.magnitude
def isFinite (number : Binary64) : Bool := number.magnitude < infinityMagnitude
def isInfinite (number : Binary64) : Bool := number.magnitude == infinityMagnitude
def isZero (number : Binary64) : Bool := number.magnitude == 0

/-- A finite number is `significand * 2 ^ exponent` up to its sign. -/
def significand (number : Binary64) : Nat :=
  if number.magnitude < Nat.pow 2 52 then number.magnitude
  else number.magnitude % Nat.pow 2 52 + Nat.pow 2 52

def exponent (number : Binary64) : Int :=
  if number.magnitude < Nat.pow 2 52 then -1074 else (number.magnitude / Nat.pow 2 52 : Nat) - 1075

def negate (number : Binary64) : Binary64 :=
  ofMagnitude (!number.isNegative) number.magnitude

/-! The two orders. -/

/-- The place of a bit pattern in the total order: a negative pattern comes before every positive
one, and a larger magnitude lies further from the middle. -/
def rank (number : Binary64) : Int :=
  if number.isNegative then -(number.magnitude + 1 : Int) else number.magnitude

protected def compare (left right : Binary64) : Ordering :=
  Ord.compare left.rank right.rank

instance : Ord Binary64 := ⟨Binary64.compare⟩

/-- The magnitude with its sign, where the two zeros fall together. -/
def signedMagnitude (number : Binary64) : Int :=
  if number.isNegative then -(number.magnitude : Int) else number.magnitude

def compare? (left right : Binary64) : Option Ordering :=
  if left.isNaN || right.isNaN then none
  else some (Ord.compare left.signedMagnitude right.signedMagnitude)

/-- Equality of numbers: the zeros are equal, and what is no number equals nothing. -/
def same (left right : Binary64) : Bool :=
  left.compare? right == some .eq

/-! Rounding. -/

/-- `numerator / denominator` as a whole number, the nearer one, and of two equally near ones the
even one. -/
def roundedQuotient (numerator denominator : Nat) : Nat :=
  let quotient := numerator / denominator
  let twice := 2 * (numerator % denominator)
  if twice < denominator ∨ (twice = denominator ∧ quotient % 2 = 0) then quotient else quotient + 1

def shifted (numerator denominator : Nat) (shift : Int) : Nat × Nat :=
  if 0 ≤ shift then (numerator, denominator * Nat.pow 2 shift.toNat)
  else (numerator * Nat.pow 2 (-shift).toNat, denominator)

/-- The exponent of the last bit that is kept of a positive ratio. -/
def lastExponent (numerator denominator : Nat) : Int :=
  let guess := max (-1074) ((numerator.log2 : Int) - denominator.log2 - 52)
  let (above, below) := shifted numerator denominator guess
  if -1074 < guess ∧ above < Nat.pow 2 52 * below then guess - 1 else guess

/-- The number nearest to `numerator / denominator`, of two equally near ones the one with the even
significand, and an infinity for a ratio past the largest finite number. -/
def ofRatio (negative : Bool) (numerator denominator : Nat) : Binary64 :=
  if numerator = 0 then ofMagnitude negative 0
  else
    let last := lastExponent numerator denominator
    let (above, below) := shifted numerator denominator last
    let magnitude := (last + 1074).toNat * Nat.pow 2 52 + roundedQuotient above below
    ofMagnitude negative (min magnitude infinityMagnitude)

def ofScaled (negative : Bool) (significand : Nat) (exponent : Int) : Binary64 :=
  if 0 ≤ exponent then ofRatio negative (significand * Nat.pow 2 exponent.toNat) 1
  else ofRatio negative significand (Nat.pow 2 (-exponent).toNat)

def ofNat (value : Nat) : Binary64 := ofRatio false value 1

def ofInt (value : Int) : Binary64 := ofRatio (value < 0) value.natAbs 1

/-! Whole numbers inside a number. -/

/-- A finite number cut off at the point, with its sign. -/
def truncate (number : Binary64) : Int :=
  let whole :=
    if 0 ≤ number.exponent then number.significand * Nat.pow 2 number.exponent.toNat
    else number.significand / Nat.pow 2 (-number.exponent).toNat
  if number.isNegative then -(whole : Int) else whole

def toInt? (number : Binary64) : Option Int :=
  if number.isFinite ∧
      (0 ≤ number.exponent ∨ number.significand % Nat.pow 2 (-number.exponent).toNat = 0) then
    some number.truncate
  else none

/-! Arithmetic. -/

protected def mul (left right : Binary64) : Binary64 :=
  let negative := left.isNegative != right.isNegative
  if left.isNaN || right.isNaN then notANumber
  else if left.isInfinite || right.isInfinite then
    if left.isZero || right.isZero then notANumber else infinity negative
  else
    ofScaled negative (left.significand * right.significand) (left.exponent + right.exponent)

protected def div (left right : Binary64) : Binary64 :=
  let negative := left.isNegative != right.isNegative
  if left.isNaN || right.isNaN then notANumber
  else if left.isInfinite then
    if right.isInfinite then notANumber else infinity negative
  else if right.isInfinite then ofMagnitude negative 0
  else if right.isZero then
    if left.isZero then notANumber else infinity negative
  else
    let exponent := left.exponent - right.exponent
    if 0 ≤ exponent then
      ofRatio negative (left.significand * Nat.pow 2 exponent.toNat) right.significand
    else ofRatio negative left.significand (right.significand * Nat.pow 2 (-exponent).toNat)

/-- The significand with its sign, in units of `2 ^ exponent`. -/
def inUnits (number : Binary64) (exponent : Int) : Int :=
  let units : Int := number.significand * Nat.pow 2 (number.exponent - exponent).toNat
  if number.isNegative then -units else units

/-- An exact sum of zero is negative only for two negative zeros. -/
protected def add (left right : Binary64) : Binary64 :=
  if left.isNaN || right.isNaN then notANumber
  else if left.isInfinite then
    if right.isInfinite && left.isNegative != right.isNegative then notANumber else left
  else if right.isInfinite then right
  else
    let exponent := min left.exponent right.exponent
    let sum := left.inUnits exponent + right.inUnits exponent
    if sum = 0 then ofMagnitude (left.isNegative && right.isNegative) 0
    else ofScaled (sum < 0) sum.natAbs exponent

instance : Mul Binary64 := ⟨Binary64.mul⟩
instance : Div Binary64 := ⟨Binary64.div⟩
instance : Add Binary64 := ⟨Binary64.add⟩

end Binary64

end EntityCursor
