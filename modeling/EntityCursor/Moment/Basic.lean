import EntityCursor.Binary64.Basic
import EntityCursor.Moment.Calendar

/-!
Moments in time, as whole seconds since the beginning of 1970 in universal time and a fraction in
nanoseconds. During a leap second the seconds stand still and the fraction runs on past a billion.
-/

namespace EntityCursor

structure Moment where
  seconds : Int
  nanos : Nat
deriving DecidableEq, Inhabited, Repr

namespace Moment

protected def compare (left right : Moment) : Ordering :=
  (Ord.compare left.seconds right.seconds).then (Ord.compare left.nanos right.nanos)

instance : Ord Moment := ⟨Moment.compare⟩

def secondsPerDay : Int := 86400

def firstYear : Int := -262143
def lastYear : Int := 262142

def earliest : Int := (CalendarDate.mk firstYear 1 1).dayNumber * secondsPerDay
def latest : Int := (CalendarDate.mk lastYear 12 31).dayNumber * secondsPerDay + (secondsPerDay - 1)

/-- The moment a number of milliseconds after the beginning of 1970, cut off to whole milliseconds.
-/
def ofMilliseconds? (number : Binary64) : Option Moment :=
  if number.isFinite then
    let milliseconds := number.truncate
    let seconds := milliseconds / 1000
    if earliest ≤ seconds ∧ seconds ≤ latest then
      some ⟨seconds, (milliseconds % 1000).toNat * 1000000⟩
    else none
  else none

def cutToMilliseconds (moment : Moment) : Moment :=
  ⟨moment.seconds, moment.nanos / 1000000 * 1000000⟩

/-- A date and a time of day. Second 60 is the leap second. -/
structure Reading where
  date : CalendarDate
  hour : Nat
  minute : Nat
  second : Nat
  nanos : Nat
deriving DecidableEq, Repr

/-- The moment of a reading that is `offset` seconds ahead of universal time, if there is such a
date and such a time. -/
def ofReading? (reading : Reading) (offset : Int) : Option Moment :=
  if reading.date.Valid ∧ firstYear ≤ reading.date.year ∧ reading.date.year ≤ lastYear ∧
      reading.hour ≤ 23 ∧ reading.minute ≤ 59 ∧ reading.second ≤ 60 then
    let timeOfDay := reading.hour * 3600 + reading.minute * 60 + min reading.second 59
    let leap := if reading.second = 60 then 1000000000 else 0
    some ⟨reading.date.dayNumber * secondsPerDay + timeOfDay - offset, reading.nanos + leap⟩
  else none

def toReading (moment : Moment) : Reading :=
  let timeOfDay := (moment.seconds % secondsPerDay).toNat
  let leap := if 1000000000 ≤ moment.nanos then 1 else 0
  { date := CalendarDate.ofDayNumber (moment.seconds / secondsPerDay)
    hour := timeOfDay / 3600
    minute := timeOfDay / 60 % 60
    second := timeOfDay % 60 + leap
    nanos := moment.nanos % 1000000000 }

end Moment

end EntityCursor
