import EntityCursor.Binary64.Basic
import EntityCursor.Text

/-!
Numerals as they stand in JSON texts, and the numbers they denote. A numeral without point and
exponent that fits 64 bits denotes a whole number. Every other numeral denotes a floating-point
number: its leading digits are gathered as long as their value fits 64 bits, digits after those only
count as places, and the gathered value is scaled by a power of ten. The scaling rounds twice, so
the result can miss the nearest number by one place.
-/

namespace EntityCursor

structure Numeral where
  negative : Bool
  whole : List Nat
  fraction : List Nat
  /-- The sign and the digits of the exponent. -/
  exponent : Option (Bool × List Nat)
  pointed : Bool
deriving DecidableEq

namespace Numeral

inductive Number where
  | integer (value : Int)
  | double (value : Binary64)
deriving DecidableEq

/-- Gathers digits as long as the value fits 64 bits; the digits left over come second. -/
def gather (value : Nat) : List Nat → Nat × List Nat
  | [] => (value, [])
  | digit :: rest =>
      let next := 10 * value + digit
      if next < Nat.pow 2 64 then gather next rest else (value, digit :: rest)

def powerOfTen (exponent : Nat) : Binary64 :=
  Binary64.ofNat (Nat.pow 10 exponent)

/-- `value * 10 ^ exponent`, or nothing when that is past the largest finite number. Powers of ten
up to 308 are themselves numbers; a smaller scale takes a second division. -/
def scaled? (value : Nat) (exponent : Int) : Option Binary64 :=
  let number := Binary64.ofNat value
  let places := exponent.natAbs
  if 0 ≤ exponent then
    if places ≤ 308 then
      let product := number * powerOfTen places
      if product.isInfinite then none else some product
    else if value = 0 then some number else none
  else if places ≤ 308 then some (number / powerOfTen places)
  else if places ≤ 616 then some (number / powerOfTen 308 / powerOfTen (places - 308))
  else some Binary64.zero

/-- The exponent of a numeral, cut off where it no longer makes a difference: nothing stands for an
exponent past 31 bits. -/
def exponentValue? (digits : List Nat) : Option Nat :=
  let value := Text.ofDigits digits
  if value < Nat.pow 2 31 then some value else none

def signed (negative : Bool) (number : Binary64) : Binary64 :=
  if negative then number.negate else number

def toBinary64? (numeral : Numeral) : Option Binary64 :=
  let (wholeValue, dropped) := gather 0 numeral.whole
  let (value, unread) := gather wholeValue numeral.fraction
  let places : Int := dropped.length - (numeral.fraction.length - unread.length : Nat)
  let magnitude :=
    match numeral.exponent with
    | none => scaled? value places
    | some (down, digits) =>
        match exponentValue? digits with
        | some exponent => scaled? value (if down then places - exponent else places + exponent)
        | none => if value = 0 ∨ down then some Binary64.zero else none
  magnitude.map (signed numeral.negative)

/-- The number a numeral denotes, or nothing when it is too large. A negative zero is no whole
number. -/
def number? (numeral : Numeral) : Option Number :=
  let value := Text.ofDigits numeral.whole
  let isWhole := !numeral.pointed && numeral.exponent.isNone
  if isWhole && !numeral.negative && value < Nat.pow 2 64 then some (.integer value)
  else if isWhole && numeral.negative && 0 < value && value ≤ Nat.pow 2 63 then
    some (.integer (-value))
  else numeral.toBinary64?.map .double

/-- A numeral at the front of a text, and what follows it. Zeros in front of other digits and
points without digits after them are refused. -/
def read? (text : List Char) : Option (Numeral × List Char) :=
  let (negative, text) :=
    match text with
    | '-' :: rest => (true, rest)
    | _ => (false, text)
  let (whole, text) := Text.spanDigits text
  if whole.isEmpty || (whole.head? == some 0 && 1 < whole.length) then none
  else
    let fractionPart : Option (Bool × List Nat × List Char) :=
      match text with
      | '.' :: rest =>
          let (digits, rest) := Text.spanDigits rest
          if digits.isEmpty then none else some (true, digits, rest)
      | _ => some (false, [], text)
    match fractionPart with
    | none => none
    | some (pointed, fraction, text) =>
        let exponentText :=
          match text with
          | 'e' :: rest => some rest
          | 'E' :: rest => some rest
          | _ => none
        match exponentText with
        | none => some (⟨negative, whole, fraction, none, pointed⟩, text)
        | some rest =>
            let (down, rest) :=
              match rest with
              | '+' :: rest => (false, rest)
              | '-' :: rest => (true, rest)
              | _ => (false, rest)
            let (digits, rest) := Text.spanDigits rest
            if digits.isEmpty then none
            else some (⟨negative, whole, fraction, some (down, digits), pointed⟩, rest)

end Numeral

end EntityCursor
