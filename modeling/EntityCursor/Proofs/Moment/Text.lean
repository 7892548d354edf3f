import EntityCursor.Moment.Text
import EntityCursor.Proofs.Moment.Calendar
import EntityCursor.Proofs.Text

/-!
Reading the text of a moment. The text has the first of the three forms that are read, and every
number in it has its fixed width, so that reading gives the moment again, cut off to milliseconds.
-/

namespace EntityCursor

namespace Moment

/-- Only during a leap second, the last second of a minute, does the fraction pass a billion. -/
structure Proper (moment : Moment) : Prop where
  nanos_lt : moment.nanos < 2000000000
  leap : 1000000000 ≤ moment.nanos → moment.seconds % 60 = 59

/-! The parts of a text. -/

theorem digitsUpTo_append {characters : List Char}
    (digits : ∀ character ∈ characters, character.isDigit) (rest : List Char) :
    digitsUpTo characters.length (characters ++ rest) = (Text.digitValues characters, rest) := by
  induction characters with
  | nil =>
      cases rest <;> rfl
  | cons first others inductionHypothesis =>
      obtain ⟨isDigit, otherDigits⟩ := List.forall_mem_cons.mp digits
      rw [List.length_cons, List.cons_append, digitsUpTo, Text.digit?_of_isDigit isDigit,
        inductionHypothesis otherDigits]
      rfl

theorem fixed?_padded {width value : Nat} (positive : 0 < width) (fits : value < 10 ^ width)
    (rest : List Char) : fixed? width (Text.padded width value ++ rest) = some (value, rest) := by
  have length := Text.length_padded positive fits
  have digits : digitsUpTo width (Text.padded width value ++ rest) =
      (Text.digitValues (Text.padded width value), rest) := by
    have all := digitsUpTo_append (Text.digits_padded width value) rest
    rw [length] at all
    exact all
  have count : (Text.digitValues (Text.padded width value)).length = width := by
    rw [Text.digitValues, List.length_map, length]
  rw [fixed?, digits]
  simp [count]

theorem fraction?_padded {milliseconds : Nat} (fits : milliseconds < 1000) (rest : List Char)
    (ends : ∀ character ∈ rest.head?, Text.digit? character = none) :
    fraction? ('.' :: Text.padded 3 milliseconds ++ rest) =
      some (milliseconds * 1000000, rest) := by
  have length : (Text.padded 3 milliseconds).length = 3 := Text.length_padded (by decide) fits
  have digits : Text.spanDigits (Text.padded 3 milliseconds ++ rest) =
      (Text.digitValues (Text.padded 3 milliseconds), rest) :=
    Text.spanDigits_append (Text.digits_padded 3 milliseconds) ends
  have count : (Text.digitValues (Text.padded 3 milliseconds)).length = 3 := by
    rw [Text.digitValues, List.length_map, length]
  have value := Text.ofDigits_padded 3 milliseconds
  rw [List.cons_append, fraction?, digits]
  generalize Text.digitValues (Text.padded 3 milliseconds) = written at count value ⊢
  have kept : written.take 9 = written := List.take_of_length_le (by omega)
  have present : written.isEmpty = false := by
    cases written with
    | nil => cases count
    | cons first others => rfl
  simp [kept, present, count, value]

/-! Whole texts. -/

theorem ofReading?_toReading {moment : Moment} (proper : moment.Proper)
    (years : firstYear ≤ moment.toReading.date.year ∧ moment.toReading.date.year ≤ lastYear)
    (fraction : Nat) :
    ofReading? { moment.toReading with nanos := fraction } 0 =
      some ⟨moment.seconds, fraction + if 1000000000 ≤ moment.nanos then 1000000000 else 0⟩ := by
  have valid := CalendarDate.valid_ofDayNumber (moment.seconds / secondsPerDay)
  have day := CalendarDate.dayNumber_ofDayNumber (moment.seconds / secondsPerDay)
  have leap := proper.leap
  obtain ⟨ofDay, ofDayEq⟩ : ∃ ofDay, ofDay = (moment.seconds % secondsPerDay).toNat := ⟨_, rfl⟩
  simp only [toReading, ← ofDayEq] at years ⊢
  rw [secondsPerDay] at ofDayEq
  have hour : ofDay / 3600 ≤ 23 := by omega
  have minute : ofDay / 60 % 60 ≤ 59 := by omega
  split
  · next leaps =>
      have atEnd : ofDay % 60 = 59 := by
        have last := leap leaps
        omega
      simp only [ofReading?]
      rw [if_pos ⟨valid, years.1, years.2, hour, minute, by omega⟩, day, secondsPerDay, atEnd]
      simp
      omega
  · simp only [ofReading?]
    have noLeap : ofDay % 60 + 0 ≠ 60 := by omega
    rw [if_pos ⟨valid, years.1, years.2, hour, minute, by omega⟩, day, secondsPerDay,
      if_neg noLeap]
    simp
    omega

theorem fixed?_pair {value : Nat} (fits : value < 100) (rest : List Char) :
    fixed? 2 (Text.padded 2 value ++ rest) = some (value, rest) :=
  fixed?_padded (by decide) fits rest

/-- The numbers of a reading have no more digits than are written of them. -/
structure Reading.Fits (reading : Reading) : Prop where
  year : 0 ≤ reading.date.year ∧ reading.date.year ≤ 9999
  month : reading.date.month < 10 ^ 2
  day : reading.date.day < 10 ^ 2
  hour : reading.hour < 10 ^ 2
  minute : reading.minute < 10 ^ 2
  second : reading.second < 10 ^ 2
  milliseconds : reading.nanos / 1000000 < 10 ^ 3

theorem fits_toReading {moment : Moment}
    (years : 0 ≤ moment.toReading.date.year ∧ moment.toReading.date.year ≤ 9999) :
    moment.toReading.Fits := by
  obtain ⟨_, monthLe, _, dayLe⟩ : moment.toReading.date.Valid := CalendarDate.valid_ofDayNumber _
  have daysLe := CalendarDate.daysInMonth_le moment.toReading.date.year moment.toReading.date.month
  refine ⟨years, by omega, by omega, ?_, ?_, ?_, ?_⟩
  · simp only [toReading, secondsPerDay]
    omega
  · simp only [toReading]
    omega
  · simp only [toReading]
    split <;> omega
  · simp only [toReading]
    omega

theorem withOffset?_text {moment : Moment} (proper : moment.Proper)
    (years : 0 ≤ moment.toReading.date.year ∧ moment.toReading.date.year ≤ 9999) :
    withOffset? moment.toReading.text = some moment.cutToMilliseconds := by
  have denoted := ofReading?_toReading proper (by rw [firstYear, lastYear]; omega)
    (moment.toReading.nanos / 1000000 * 1000000)
  have fits := fits_toReading years
  have cut : moment.toReading.nanos / 1000000 * 1000000 +
      (if 1000000000 ≤ moment.nanos then 1000000000 else 0) = moment.nanos / 1000000 * 1000000 := by
    have bound := proper.nanos_lt
    simp only [toReading]
    split <;> omega
  rw [cut] at denoted
  generalize moment.toReading = reading at denoted fits ⊢
  obtain ⟨⟨year, month, day⟩, hour, minute, second, nanos⟩ := reading
  obtain ⟨years, month, day, hour, minute, second, milliseconds⟩ := fits
  dsimp only at years denoted month day hour minute second milliseconds
  have yearFits : year.toNat < 10 ^ 4 := by omega
  have yearBack : ((year.toNat : Nat) : Int) = year := by omega
  have ends : ∀ character ∈ ['Z'].head?, Text.digit? character = none := by
    rintro character ⟨⟩
    rfl
  have written := fraction?_padded milliseconds ['Z'] ends
  simp only [Reading.text, yearText, if_pos years, List.append_assoc, List.cons_append] at written ⊢
  have mark : isTimeMark 'T' = true := rfl
  have universal : offset? ['Z'] = some (0, []) := rfl
  rw [withOffset?, fixed?_padded (by decide) yearFits]
  simp only [Option.bind_eq_bind, Option.bind_some, expect?, if_true, mark, fixed?_pair month,
    fixed?_pair day, fixed?_pair hour, fixed?_pair minute, fixed?_pair second, written, universal,
    yearBack, denoted]
  rfl

/-- A moment of a year of four digits is read from its text, cut off to milliseconds. -/
theorem read?_text {moment : Moment} (proper : moment.Proper)
    (years : 0 ≤ moment.toReading.date.year ∧ moment.toReading.date.year ≤ 9999) :
    read? moment.text = some moment.cutToMilliseconds := by
  rw [read?, text, String.toList_ofList, withOffset?_text proper years]
  rfl

/-! What is read is proper. -/

theorem proper_ofReading? {reading : Reading} {offset : Int} {moment : Moment}
    (fraction : reading.nanos < 1000000000) (minutes : offset % 60 = 0)
    (denoted : ofReading? reading offset = some moment) : moment.Proper := by
  rw [ofReading?] at denoted
  split at denoted
  · cases denoted
    rw [secondsPerDay]
    constructor
    · dsimp only
      split <;> omega
    · dsimp only
      intro leaps
      split at leaps
      · next last =>
          rw [last]
          omega
      · omega
  · cases denoted

theorem fraction?_lt {text rest : List Char} {nanos : Nat}
    (read : fraction? text = some (nanos, rest)) : nanos < 1000000000 := by
  rw [fraction?.eq_def] at read
  split at read
  · next written =>
      have below := Text.lt_of_mem_spanDigits written
      generalize Text.spanDigits written = digits at read below
      obtain ⟨digits, others⟩ := digits
      dsimp only at read below
      split at read
      · cases read
      · cases read
        have kept : ∀ digit ∈ digits.take 9, digit < 10 :=
          fun digit member => below digit (List.mem_of_mem_take member)
        have length : (digits.take 9).length ≤ 9 := by
          rw [List.length_take]
          omega
        have value := Text.ofDigits_lt kept
        generalize digits.take 9 = digits at length value
        have places : 10 ^ digits.length * 10 ^ (9 - digits.length) = 10 ^ 9 := by
          rw [← Nat.pow_add]
          congr 1
          omega
        have positive : 0 < 10 ^ (9 - digits.length) := Nat.pow_pos (by decide)
        have scaled := Nat.mul_lt_mul_of_pos_right value positive
        rw [places] at scaled
        exact scaled
  · cases read
    decide

theorem offset?_minutes {text rest : List Char} {offset : Int}
    (read : offset? text = some (offset, rest)) : offset % 60 = 0 := by
  cases text with
  | nil => cases read
  | cons sign written =>
      rw [offset?] at read
      split at read
      · cases read
        rfl
      · split at read
        · simp only [Option.bind_eq_bind, Option.bind_eq_some_iff] at read
          obtain ⟨⟨hours, _⟩, _, _, _, ⟨minutes, _⟩, _, read⟩ := read
          dsimp only at read
          split at read
          · cases read
            split <;> omega
          · cases read
        · cases read

theorem of_expectEnd? {moment read : Moment} {text : List Char}
    (ended : expectEnd? moment text = some read) : moment = read := by
  rw [expectEnd?] at ended
  split at ended
  · exact Option.some.inj ended
  · cases ended

theorem proper_withOffset? {text : List Char} {moment : Moment}
    (read : withOffset? text = some moment) : moment.Proper := by
  simp only [withOffset?, Option.bind_eq_bind, Option.bind_eq_some_iff] at read
  obtain ⟨_, _, _, _, _, _, _, _, _, _, read⟩ := read
  split at read
  · cases read
  · split at read
    · simp only [Option.bind_eq_some_iff] at read
      obtain ⟨_, _, _, _, _, _, _, _, _, _, ⟨nanos, _⟩, fraction, ⟨offset, _⟩, minutes, denoted,
        reading, ended⟩ := read
      obtain rfl := of_expectEnd? ended
      exact proper_ofReading? (fraction?_lt fraction) (offset?_minutes minutes) reading
    · cases read

theorem proper_withoutOffset? {text : List Char} {moment : Moment}
    (read : withoutOffset? text = some moment) : moment.Proper := by
  simp only [withoutOffset?, Option.bind_eq_bind, Option.bind_eq_some_iff] at read
  obtain ⟨_, _, _, _, _, _, _, _, _, _, _, _, _, _, ⟨nanos, _⟩, fraction, denoted, reading,
    ended⟩ := read
  obtain rfl := of_expectEnd? ended
  exact proper_ofReading? (fraction?_lt fraction) rfl reading

theorem proper_midnight? {text : List Char} {moment : Moment}
    (read : midnight? text = some moment) : moment.Proper := by
  simp only [midnight?, Option.bind_eq_bind, Option.bind_eq_some_iff] at read
  obtain ⟨_, _, denoted, reading, ended⟩ := read
  obtain rfl := of_expectEnd? ended
  exact proper_ofReading? (Nat.zero_lt_succ _) rfl reading

theorem proper_read? {text : String} {moment : Moment} (read : read? text = some moment) :
    moment.Proper := by
  rw [read?] at read
  cases first : withOffset? text.toList with
  | some found =>
      rw [first] at read
      cases read
      exact proper_withOffset? first
  | none =>
      cases second : withoutOffset? text.toList with
      | some found =>
          rw [first, second] at read
          cases read
          exact proper_withoutOffset? second
      | none =>
          rw [first, second] at read
          exact proper_midnight? read

theorem proper_ofMilliseconds? {number : Binary64} {moment : Moment}
    (denoted : ofMilliseconds? number = some moment) : moment.Proper := by
  rw [ofMilliseconds?] at denoted
  split at denoted
  · dsimp only at denoted
    split at denoted
    · cases denoted
      constructor
      · dsimp only
        omega
      · dsimp only
        omega
    · cases denoted
  · cases denoted

end Moment

end EntityCursor
