import EntityCursor.Moment.Calendar

/-!
The calendar counts every day once. A day of a cycle is made up of centuries, spans of four years,
years and a day of the year; from these the year that the calendar computes can be read off, and the
date of a numbered day has that number and is a date. Days are counted in the order of their dates:
no month reaches into the next, and no year that begins in March into the next one.
-/

namespace EntityCursor

namespace CalendarDate

/-- The years of a cycle before a day, and the day of the year that it is, for years that begin in
March. A year has a day 365 if the February at its end has a leap day. -/
structure InCycle (dayOfCycle year dayOfYear : Int) : Prop where
  year_nonneg : 0 ≤ year
  year_le : year ≤ 399
  day_nonneg : 0 ≤ dayOfYear
  day_le : dayOfYear ≤ 365
  leap : dayOfYear = 365 → (year + 1) % 4 = 0 ∧ ((year + 1) % 100 ≠ 0 ∨ (year + 1) % 400 = 0)
  dayOfCycle_eq : dayOfCycle = 365 * year + year / 4 - year / 100 + dayOfYear
  formula : (dayOfCycle - dayOfCycle / 1460 + dayOfCycle / 36524 - dayOfCycle / 146096) / 365 = year

section Parts

variable {centuries spans years dayOfYear : Int} (centuriesBound : 0 ≤ centuries ∧ centuries ≤ 3)
  (spansBound : 0 ≤ spans ∧ spans ≤ 24) (yearsBound : 0 ≤ years ∧ years ≤ 3)
  (dayBound : 0 ≤ dayOfYear ∧ dayOfYear ≤ 365)
  (leap : dayOfYear = 365 → years = 3 ∧ (spans = 24 → centuries = 3))

include centuriesBound spansBound yearsBound dayBound leap

/-- Centuries begin with the days that the calendar counts them by, but the last day of a cycle. -/
theorem centuries_of_parts :
    (36524 * centuries + 1461 * spans + 365 * years + dayOfYear) / 36524 -
      (36524 * centuries + 1461 * spans + 365 * years + dayOfYear) / 146096 = centuries := by
  by_cases last : dayOfYear = 365 ∧ spans = 24
  · obtain ⟨rfl, rfl⟩ := last
    obtain ⟨rfl, final⟩ := leap rfl
    obtain rfl := final rfl
    rfl
  · have within : 1461 * spans + 365 * years + dayOfYear < 36524 := by omega
    have centuriesEq : (36524 * centuries + 1461 * spans + 365 * years + dayOfYear) / 36524 =
        centuries := by omega
    have noCycle : (36524 * centuries + 1461 * spans + 365 * years + dayOfYear) / 146096 = 0 := by
      omega
    rw [centuriesEq, noCycle, Int.sub_zero]

theorem formula_of_parts {dayOfCycle : Int}
    (day : dayOfCycle = 36524 * centuries + 1461 * spans + 365 * years + dayOfYear) :
    (dayOfCycle - dayOfCycle / 1460 + dayOfCycle / 36524 - dayOfCycle / 146096) / 365 =
      100 * centuries + 4 * spans + years := by
  -- The days that count for no year: one in every four years, the next of which may be near.
  obtain ⟨carry, carryEq⟩ : ∃ carry,
    carry = (24 * centuries + spans + 365 * years + dayOfYear) / 1460 := ⟨_, rfl⟩
  have atMostOne : 0 ≤ carry ∧ carry ≤ 1 := by omega
  have near : 0 ≤ dayOfYear - carry ∧ dayOfYear - carry < 365 := by omega
  have leapDays : dayOfCycle / 1460 = 25 * centuries + spans + carry := by omega
  have difference : dayOfCycle - (25 * centuries + spans + carry) + centuries =
      dayOfYear - carry + 365 * (100 * centuries + 4 * spans + years) := by
    rw [day]
    clear carryEq leapDays
    omega
  have wholeCenturies := centuries_of_parts centuriesBound spansBound yearsBound dayBound leap
  rw [← day] at wholeCenturies
  rw [Int.add_sub_assoc, wholeCenturies, leapDays, difference,
    Int.add_mul_ediv_left _ _ (by decide), Int.ediv_eq_zero_of_lt near.1 near.2, Int.zero_add]

theorem inCycle_of_parts :
    InCycle (36524 * centuries + 1461 * spans + 365 * years + dayOfYear)
      (100 * centuries + 4 * spans + years) dayOfYear := by
  constructor
  · omega
  · omega
  · omega
  · omega
  · intro last
    obtain ⟨rfl, final⟩ := leap last
    constructor
    · omega
    · by_cases wholeCentury : spans = 24
      · right
        omega
      · left
        omega
  · have quarter : (100 * centuries + 4 * spans + years) / 4 = 25 * centuries + spans := by omega
    have hundredth : (100 * centuries + 4 * spans + years) / 100 = centuries := by omega
    rw [quarter, hundredth]
    omega
  · exact formula_of_parts centuriesBound spansBound yearsBound dayBound leap rfl

end Parts

theorem exists_inCycle {dayOfCycle : Int} (nonneg : 0 ≤ dayOfCycle)
    (below : dayOfCycle < cycleDays) : ∃ year dayOfYear, InCycle dayOfCycle year dayOfYear := by
  rw [cycleDays] at below
  obtain ⟨centuries, centuriesEq⟩ : ∃ centuries, centuries = min (dayOfCycle / 36524) 3 := ⟨_, rfl⟩
  obtain ⟨ofCentury, ofCenturyEq⟩ : ∃ day, day = dayOfCycle - 36524 * centuries := ⟨_, rfl⟩
  obtain ⟨spans, spansEq⟩ : ∃ spans, spans = ofCentury / 1461 := ⟨_, rfl⟩
  obtain ⟨ofSpan, ofSpanEq⟩ : ∃ day, day = ofCentury - 1461 * spans := ⟨_, rfl⟩
  obtain ⟨years, yearsEq⟩ : ∃ years, years = min (ofSpan / 365) 3 := ⟨_, rfl⟩
  have century : 0 ≤ ofCentury ∧ ofCentury ≤ 36524 ∧ (ofCentury = 36524 → centuries = 3) := by omega
  have span : 0 ≤ ofSpan ∧ ofSpan ≤ 1460 ∧ 0 ≤ spans ∧ spans ≤ 24 := by omega
  have parts : dayOfCycle =
      36524 * centuries + 1461 * spans + 365 * years + (ofSpan - 365 * years) := by omega
  refine ⟨100 * centuries + 4 * spans + years, ofSpan - 365 * years, ?_⟩
  rw [parts]
  apply inCycle_of_parts
  · omega
  · omega
  · omega
  · omega
  · intro last
    constructor
    · omega
    · intro wholeCentury
      apply century.2.2
      omega

/-- The date of a day of a year that begins in March. -/
def ofDayOfYear (year dayOfYear : Int) : CalendarDate :=
  let month := (5 * dayOfYear + 2) / 153
  let day := dayOfYear - (153 * month + 2) / 5 + 1
  if month < 10 then ⟨year, (month + 3).toNat, day.toNat⟩
  else ⟨year + 1, (month - 9).toNat, day.toNat⟩

variable {year dayOfYear : Int}

theorem dayNumber_ofDayOfYear (day : 0 ≤ dayOfYear ∧ dayOfYear ≤ 365) :
    (ofDayOfYear year dayOfYear).dayNumber =
      year / 400 * cycleDays +
        (year % 400 * 365 + year % 400 / 4 - year % 400 / 100 + dayOfYear) - cycleStart := by
  have month : 0 ≤ (5 * dayOfYear + 2) / 153 ∧ (5 * dayOfYear + 2) / 153 ≤ 11 := by omega
  have ofMonth : 0 ≤ dayOfYear - (153 * ((5 * dayOfYear + 2) / 153) + 2) / 5 := by omega
  simp only [ofDayOfYear]
  generalize (5 * dayOfYear + 2) / 153 = months at month ofMonth ⊢
  split
  · have late : ¬(months + 3).toNat ≤ 2 := by omega
    have back : ((months + 3).toNat : Int) - 3 = months := by omega
    simp only [dayNumber, late, if_false, back]
    omega
  · have early : (months - 9).toNat ≤ 2 := by omega
    have back : ((months - 9).toNat : Int) + 9 = months := by omega
    have sameYear : year + 1 - 1 = year := by omega
    simp only [dayNumber, early, if_true, back, sameYear]
    omega

theorem valid_ofDayOfYear (day : 0 ≤ dayOfYear ∧ dayOfYear ≤ 365)
    (leap : dayOfYear = 365 → isLeapYear (year + 1) = true) :
    (ofDayOfYear year dayOfYear).Valid := by
  have month : 0 ≤ (5 * dayOfYear + 2) / 153 ∧ (5 * dayOfYear + 2) / 153 ≤ 11 := by omega
  obtain ⟨months, monthsEq⟩ : ∃ months, months = (5 * dayOfYear + 2) / 153 := ⟨_, rfl⟩
  have bounds : 153 * months ≤ 5 * dayOfYear + 2 ∧ 5 * dayOfYear + 2 < 153 * months + 153 := by
    omega
  rw [← monthsEq] at month
  have twelve : months = 0 ∨ months = 1 ∨ months = 2 ∨ months = 3 ∨ months = 4 ∨ months = 5 ∨
      months = 6 ∨ months = 7 ∨ months = 8 ∨ months = 9 ∨ months = 10 ∨ months = 11 := by omega
  simp only [ofDayOfYear, ← monthsEq]
  rcases twelve with rfl | rfl | rfl | rfl | rfl | rfl | rfl | rfl | rfl | rfl | rfl | rfl
  case inr.inr.inr.inr.inr.inr.inr.inr.inr.inr.inr =>
    -- February, at the end of the year: only its last day depends on the year.
    by_cases last : dayOfYear = 365
    · subst last
      simp [Valid, daysInMonth, leap rfl]
    · simp [Valid, daysInMonth]
      split <;> omega
  all_goals
    simp [Valid, daysInMonth]
    omega

theorem ofDayNumber_eq {number : Int}
    (inCycle : InCycle ((number + cycleStart) % cycleDays) year dayOfYear) :
    ofDayNumber number =
      ofDayOfYear (year + (number + cycleStart) / cycleDays * 400) dayOfYear := by
  have day : (number + cycleStart) % cycleDays - (365 * year + year / 4 - year / 100) =
      dayOfYear := by
    rw [inCycle.dayOfCycle_eq]
    omega
  simp only [ofDayNumber, inCycle.formula, day]
  rfl

theorem exists_ofDayNumber (number : Int) :
    ∃ year dayOfYear, InCycle ((number + cycleStart) % cycleDays) year dayOfYear ∧
      ofDayNumber number =
        ofDayOfYear (year + (number + cycleStart) / cycleDays * 400) dayOfYear := by
  obtain ⟨year, dayOfYear, inCycle⟩ := exists_inCycle
    (Int.emod_nonneg (number + cycleStart) (by decide))
    (Int.emod_lt_of_pos (number + cycleStart) (by decide))
  exact ⟨year, dayOfYear, inCycle, ofDayNumber_eq inCycle⟩

@[simp]
theorem dayNumber_ofDayNumber (number : Int) : (ofDayNumber number).dayNumber = number := by
  obtain ⟨year, dayOfYear, inCycle, date⟩ := exists_ofDayNumber number
  obtain ⟨yearNonneg, yearLe, dayNonneg, dayLe, _, dayOfCycle, _⟩ := inCycle
  have cycle : (year + (number + cycleStart) / cycleDays * 400) / 400 =
      (number + cycleStart) / cycleDays := by omega
  have yearOfCycle : (year + (number + cycleStart) / cycleDays * 400) % 400 = year := by omega
  rw [date, dayNumber_ofDayOfYear ⟨dayNonneg, dayLe⟩, cycle, yearOfCycle]
  have whole := Int.mul_ediv_add_emod (number + cycleStart) cycleDays
  rw [dayOfCycle, Int.mul_comm] at whole
  omega

@[simp]
theorem valid_ofDayNumber (number : Int) : (ofDayNumber number).Valid := by
  obtain ⟨year, dayOfYear, inCycle, date⟩ := exists_ofDayNumber number
  rw [date]
  apply valid_ofDayOfYear ⟨inCycle.day_nonneg, inCycle.day_le⟩
  intro last
  obtain ⟨fourth, century⟩ := inCycle.leap last
  simp only [isLeapYear, Bool.and_eq_true, Bool.or_eq_true, decide_eq_true_eq]
  omega

@[simp]
theorem daysInMonth_le (year : Int) (month : Nat) : daysInMonth year month ≤ 31 := by
  unfold daysInMonth
  split
  · split <;> decide
  · split <;> decide

/-! The order of days. -/

def order (date other : CalendarDate) : Ordering :=
  (compare date.year other.year).then
    ((compare date.month other.month).then (compare date.day other.day))

/-- The year that a date lies in if years begin in March. -/
def marchYear (date : CalendarDate) : Int :=
  if date.month ≤ 2 then date.year - 1 else date.year

def marchMonth (date : CalendarDate) : Int :=
  if date.month ≤ 2 then (date.month : Int) + 9 else (date.month : Int) - 3

def daysBeforeMonth (month : Int) : Int :=
  (153 * month + 2) / 5

/-- The number of the day on which such a year begins. -/
def marchStart (year : Int) : Int :=
  365 * year + year / 4 - year / 100 + year / 400 - cycleStart

theorem dayNumber_eq (date : CalendarDate) : date.dayNumber =
    marchStart date.marchYear + (daysBeforeMonth date.marchMonth + (date.day - 1)) := by
  simp only [dayNumber, marchStart, marchYear, marchMonth, daysBeforeMonth, cycleDays]
  omega

variable {date other : CalendarDate}

theorem Valid.month_bounds (valid : date.Valid) : 0 ≤ date.marchMonth ∧ date.marchMonth ≤ 11 := by
  obtain ⟨positive, le, _, _⟩ := valid
  rw [marchMonth]
  omega

theorem Valid.before_month (valid : date.Valid) (early : date.marchMonth < 11) :
    daysBeforeMonth date.marchMonth + (date.day - 1) < daysBeforeMonth (date.marchMonth + 1) := by
  obtain ⟨year, month, day⟩ := date
  obtain ⟨positive, le, _, dayLe⟩ := valid
  simp only [marchMonth, daysBeforeMonth] at positive le dayLe early ⊢
  -- The formula for the days before a month gives the length of each month but the last, February.
  have notFebruary : month = 1 ∨ month = 3 ∨ month = 4 ∨ month = 5 ∨ month = 6 ∨ month = 7 ∨
      month = 8 ∨ month = 9 ∨ month = 10 ∨ month = 11 ∨ month = 12 := by omega
  rcases notFebruary with rfl | rfl | rfl | rfl | rfl | rfl | rfl | rfl | rfl | rfl | rfl
  all_goals
    simp [daysInMonth] at dayLe ⊢
    omega

theorem Valid.before_year (valid : date.Valid) :
    marchStart date.marchYear + (daysBeforeMonth date.marchMonth + (date.day - 1)) <
      marchStart (date.marchYear + 1) := by
  by_cases february : date.marchMonth = 11
  · -- The last month of the year has a leap day if the next calendar year is a leap year.
    have month : date.month = 2 := by
      have monthLe := valid.2.1
      rw [marchMonth] at february
      omega
    have dayLe := valid.2.2.2
    rw [month, daysInMonth, if_pos rfl, isLeapYear] at dayLe
    rw [february, marchYear, if_pos (by omega), marchStart, marchStart, daysBeforeMonth]
    simp at dayLe
    split at dayLe
    · omega
    · omega
  · have bounds := valid.month_bounds
    have before := valid.before_month (by omega)
    simp only [marchStart, daysBeforeMonth] at before ⊢
    omega

theorem Valid.dayNumber_lt (valid : date.Valid) (otherValid : other.Valid)
    (less : date.year < other.year ∨ date.year = other.year ∧
      (date.month < other.month ∨ date.month = other.month ∧ date.day < other.day)) :
    date.dayNumber < other.dayNumber := by
  have otherBounds := otherValid.month_bounds
  have dayPositive := otherValid.2.2.1
  have earlier : date.marchYear < other.marchYear ∨ date.marchYear = other.marchYear ∧
      (date.marchMonth < other.marchMonth ∨
        date.marchMonth = other.marchMonth ∧ date.day < other.day) := by
    have monthLe := valid.2.1
    have otherPositive := otherValid.1
    simp only [marchYear, marchMonth]
    omega
  rw [dayNumber_eq, dayNumber_eq]
  rcases earlier with year | ⟨year, month | ⟨month, day⟩⟩
  · have before := valid.before_year
    have years : marchStart (date.marchYear + 1) ≤ marchStart other.marchYear := by
      simp only [marchStart]
      omega
    have after : 0 ≤ daysBeforeMonth other.marchMonth := by
      rw [daysBeforeMonth]
      omega
    omega
  · have before := valid.before_month (by omega)
    have months : daysBeforeMonth (date.marchMonth + 1) ≤ daysBeforeMonth other.marchMonth := by
      simp only [daysBeforeMonth]
      omega
    rw [year]
    omega
  · rw [year, month]
    omega

/-- Days are counted in the order of their dates. -/
theorem compare_dayNumber (valid : date.Valid) (otherValid : other.Valid) :
    compare date.dayNumber other.dayNumber = date.order other := by
  cases order : date.order other with
  | lt =>
      simp only [CalendarDate.order, Ordering.then_eq_lt, Int.compare_eq_lt, Int.compare_eq_eq,
        Nat.compare_eq_lt, Nat.compare_eq_eq] at order
      exact Int.compare_eq_lt.mpr (valid.dayNumber_lt otherValid order)
  | eq =>
      simp only [CalendarDate.order, Ordering.then_eq_eq, Int.compare_eq_eq,
        Nat.compare_eq_eq] at order
      rw [Int.compare_eq_eq, dayNumber, order.1, order.2.1, order.2.2, dayNumber]
  | gt =>
      simp only [CalendarDate.order, Ordering.then_eq_gt, Int.compare_eq_gt, Int.compare_eq_eq,
        Nat.compare_eq_gt, Nat.compare_eq_eq] at order
      exact Int.compare_eq_gt.mpr (otherValid.dayNumber_lt valid (by omega))

end CalendarDate

end EntityCursor
