import EntityCursor.Proofs.Moment.Text
import EntityCursor.Value.Basic

/-!
The order of the texts of moments. A text is the parts of a reading in fixed widths, the greatest
first, so that texts compare as readings do part by part; and readings in universal time compare as
the moments that they are of. A leap second stands alone at the end of its minute: it is read as
second 60 there, and counted as second 59 with a fraction beyond a billion.
-/

namespace EntityCursor

namespace Moment

def Reading.order (reading other : Reading) : Ordering :=
  (reading.date.order other.date).then ((compare reading.hour other.hour).then
    ((compare reading.minute other.minute).then ((compare reading.second other.second).then
      (compare (reading.nanos / 1000000) (other.nanos / 1000000)))))

theorem Reading.Fits.compare_text {reading other : Reading} (fits : reading.Fits)
    (otherFits : other.Fits) : compare reading.text other.text = reading.order other := by
  obtain ⟨years, month, day, hour, minute, second, milliseconds⟩ := fits
  obtain ⟨otherYears, otherMonth, otherDay, otherHour, otherMinute, otherSecond,
    otherMilliseconds⟩ := otherFits
  have year : reading.date.year.toNat < 10 ^ 4 := by omega
  have otherYear : other.date.year.toNat < 10 ^ 4 := by omega
  have yearsAlike : compare reading.date.year.toNat other.date.year.toNat =
      compare reading.date.year other.date.year := by
    apply Text.ordering_ext
    · rw [Nat.compare_eq_lt, Int.compare_eq_lt]
      omega
    · rw [Nat.compare_eq_gt, Int.compare_eq_gt]
      omega
  have atEnd : compare ['Z'] ['Z'] = .eq := rfl
  simp only [Reading.text, yearText, if_pos years, if_pos otherYears, List.append_assoc,
    List.cons_append]
  rw [Text.compare_padded (by decide) year otherYear, Text.compare_cons,
    Text.compare_padded (by decide) month otherMonth, Text.compare_cons,
    Text.compare_padded (by decide) day otherDay, Text.compare_cons,
    Text.compare_padded (by decide) hour otherHour, Text.compare_cons,
    Text.compare_padded (by decide) minute otherMinute, Text.compare_cons,
    Text.compare_padded (by decide) second otherSecond, Text.compare_cons,
    Text.compare_padded (by decide) milliseconds otherMilliseconds, atEnd, Ordering.then_eq,
    yearsAlike, Reading.order, CalendarDate.order, Ordering.then_assoc, Ordering.then_assoc]

theorem compare_seconds (moment other : Moment) :
    compare moment.seconds other.seconds =
      (compare (moment.seconds / secondsPerDay) (other.seconds / secondsPerDay)).then
        ((compare moment.toReading.hour other.toReading.hour).then
          ((compare moment.toReading.minute other.toReading.minute).then
            (compare (moment.seconds % 60) (other.seconds % 60)))) := by
  simp only [toReading, secondsPerDay]
  apply Text.ordering_ext
  · simp only [Ordering.then_eq_lt, Int.compare_eq_lt, Int.compare_eq_eq, Nat.compare_eq_lt,
      Nat.compare_eq_eq]
    omega
  · simp only [Ordering.then_eq_gt, Int.compare_eq_gt, Int.compare_eq_eq, Nat.compare_eq_gt,
      Nat.compare_eq_eq]
    omega

/-- Only a leap second is read as second 60, and its fraction as one that has begun anew. -/
theorem lastSecond_cases {moment : Moment} (proper : moment.Proper) :
    (moment.toReading.second : Int) = moment.seconds % 60 ∧
        moment.toReading.nanos = moment.nanos ∧ moment.nanos < 1000000000 ∨
      moment.toReading.second = 60 ∧ moment.seconds % 60 = 59 ∧
        moment.toReading.nanos + 1000000000 = moment.nanos := by
  have bound := proper.nanos_lt
  simp only [toReading, secondsPerDay]
  split
  · next leaps =>
      have last := proper.leap leaps
      right
      omega
  · left
    omega

theorem compare_lastSecond {moment other : Moment} (proper : moment.Proper)
    (otherProper : other.Proper) :
    (compare moment.toReading.second other.toReading.second).then
        (compare (moment.toReading.nanos / 1000000) (other.toReading.nanos / 1000000)) =
      (compare (moment.seconds % 60) (other.seconds % 60)).then
        (compare moment.cutToMilliseconds.nanos other.cutToMilliseconds.nanos) := by
  have read := lastSecond_cases proper
  have otherRead := lastSecond_cases otherProper
  simp only [cutToMilliseconds]
  apply Text.ordering_ext
  · simp only [Ordering.then_eq_lt, Int.compare_eq_lt, Int.compare_eq_eq, Nat.compare_eq_lt,
      Nat.compare_eq_eq]
    omega
  · simp only [Ordering.then_eq_gt, Int.compare_eq_gt, Int.compare_eq_eq, Nat.compare_eq_gt,
      Nat.compare_eq_eq]
    omega

theorem order_toReading {moment other : Moment} (proper : moment.Proper)
    (otherProper : other.Proper) :
    moment.toReading.order other.toReading =
      compare moment.cutToMilliseconds other.cutToMilliseconds := by
  have days := CalendarDate.compare_dayNumber
    (CalendarDate.valid_ofDayNumber (moment.seconds / secondsPerDay))
    (CalendarDate.valid_ofDayNumber (other.seconds / secondsPerDay))
  rw [CalendarDate.dayNumber_ofDayNumber, CalendarDate.dayNumber_ofDayNumber] at days
  have byParts : compare moment.cutToMilliseconds other.cutToMilliseconds =
      (compare moment.seconds other.seconds).then
        (compare moment.cutToMilliseconds.nanos other.cutToMilliseconds.nanos) := rfl
  rw [byParts, compare_seconds, Reading.order, compare_lastSecond proper otherProper, days]
  simp only [Ordering.then_assoc]
  rfl

/-- A moment of a year of four digits is written as a text that is read back as the moment cut off
to milliseconds, and texts of such moments compare as these cut moments do in time. -/
theorem texts_in_order {moment other : Moment} (proper : moment.Proper)
    (otherProper : other.Proper)
    (years : 0 ≤ moment.toReading.date.year ∧ moment.toReading.date.year ≤ 9999)
    (otherYears : 0 ≤ other.toReading.date.year ∧ other.toReading.date.year ≤ 9999) :
    (Value.date moment).toJson = .string moment.text ∧
      read? moment.text = some moment.cutToMilliseconds ∧
      compare moment.text other.text =
        compare moment.cutToMilliseconds other.cutToMilliseconds := by
  refine ⟨by rw [Value.toJson], read?_text proper years, ?_⟩
  rw [text, text, Text.compare_ofList, (fits_toReading years).compare_text
    (fits_toReading otherYears), order_toReading proper otherProper]

/-- The leap second at the end of 2016, and the second after it. -/
def leapSecond : Moment := ⟨1483228799, 1500000999⟩
def newYear : Moment := ⟨1483228800, 0⟩

theorem leapSecond_before_newYear :
    leapSecond.Proper ∧ newYear.Proper ∧
      (Value.date leapSecond).toJson = .string "2016-12-31T23:59:60.500Z" ∧
      read? "2016-12-31T23:59:60.500Z" = some ⟨1483228799, 1500000000⟩ ∧
      compare "2016-12-31T23:59:60.500Z" "2017-01-01T00:00:00.000Z" =
        compare leapSecond.cutToMilliseconds newYear.cutToMilliseconds := by
  have proper : leapSecond.Proper := ⟨by decide, by decide⟩
  have newYearProper : newYear.Proper := ⟨by decide, by decide⟩
  have written : leapSecond.text = "2016-12-31T23:59:60.500Z" := by decide +kernel
  have newYearWritten : newYear.text = "2017-01-01T00:00:00.000Z" := by decide +kernel
  have result := texts_in_order proper newYearProper (by decide) (by decide)
  rw [written, newYearWritten] at result
  exact ⟨proper, newYearProper, result⟩

end Moment

end EntityCursor
