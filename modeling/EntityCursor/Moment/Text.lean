import EntityCursor.Moment.Basic
import EntityCursor.Text

/-!
The texts of moments. A moment is written in universal time with three digits of its fraction. Three
forms are read, in this order: a date and a time of fixed widths with an offset, a date and a time
without offset, and a date alone. In the last two numbers need no zeros in front, blanks may stand
before a number, and a year has at most four digits unless it has a sign.
-/

namespace EntityCursor

namespace Moment

/-! Writing. -/

/-- A year of four digits; years outside of 0 to 9999 carry a sign. -/
def yearText (year : Int) : List Char :=
  if 0 ≤ year ∧ year ≤ 9999 then Text.padded 4 year.toNat
  else (if year < 0 then '-' else '+') :: Text.padded 4 year.natAbs

def Reading.text (reading : Reading) : List Char :=
  yearText reading.date.year ++ '-' :: Text.padded 2 reading.date.month ++
    '-' :: Text.padded 2 reading.date.day ++ 'T' :: Text.padded 2 reading.hour ++
    ':' :: Text.padded 2 reading.minute ++ ':' :: Text.padded 2 reading.second ++
    '.' :: Text.padded 3 (reading.nanos / 1000000) ++ ['Z']

def text (moment : Moment) : String :=
  String.ofList moment.toReading.text

/-! Reading. -/

/-- At most `width` decimal digits from the front, and what follows them. -/
def digitsUpTo : (width : Nat) → List Char → List Nat × List Char
  | 0, text => ([], text)
  | _ + 1, [] => ([], [])
  | width + 1, character :: rest =>
      match Text.digit? character with
      | some digit =>
          let (digits, others) := digitsUpTo width rest
          (digit :: digits, others)
      | none => ([], character :: rest)

def fixed? (width : Nat) (text : List Char) : Option (Nat × List Char) :=
  let (digits, rest) := digitsUpTo width text
  if digits.length = width then some (Text.ofDigits digits, rest) else none

def expect? (character : Char) : List Char → Option (List Char)
  | first :: rest => if first = character then some rest else none
  | [] => none

def expectEnd? (moment : Moment) (text : List Char) : Option Moment :=
  if text.isEmpty then some moment else none

/-- Nanoseconds after a point. Digits past the ninth are passed over. -/
def fraction? : List Char → Option (Nat × List Char)
  | '.' :: rest =>
      let (digits, rest) := Text.spanDigits rest
      let kept := digits.take 9
      if digits.isEmpty then none
      else some (Text.ofDigits kept * Nat.pow 10 (9 - kept.length), rest)
  | text => some (0, text)

/-- An offset from universal time in seconds, as `Z` or as signed hours and minutes. -/
def offset? : List Char → Option (Int × List Char)
  | [] => none
  | sign :: rest =>
      if sign = 'Z' ∨ sign = 'z' then some (0, rest)
      else if sign = '+' ∨ sign = '-' ∨ sign = '\u2212' then do
        let (hours, rest) ← fixed? 2 rest
        let rest ← expect? ':' rest
        let (minutes, rest) ← fixed? 2 rest
        if hours ≤ 23 ∧ minutes ≤ 59 then
          let seconds : Int := hours * 3600 + minutes * 60
          some (if sign = '+' then seconds else -seconds, rest)
        else none
      else none

def isTimeMark (character : Char) : Bool :=
  character = 'T' || character = 't' || character = ' '

def withOffset? (text : List Char) : Option Moment := do
  let (year, text) ← fixed? 4 text
  let text ← expect? '-' text
  let (month, text) ← fixed? 2 text
  let text ← expect? '-' text
  let (day, text) ← fixed? 2 text
  match text with
  | [] => none
  | mark :: text =>
      if isTimeMark mark then
        let (hour, text) ← fixed? 2 text
        let text ← expect? ':' text
        let (minute, text) ← fixed? 2 text
        let text ← expect? ':' text
        let (second, text) ← fixed? 2 text
        let (nanos, text) ← fraction? text
        let (offset, text) ← offset? text
        let moment ← ofReading? ⟨⟨year, month, day⟩, hour, minute, second, nanos⟩ offset
        expectEnd? moment text
      else none

def number? (width : Nat) (text : List Char) : Option (Nat × List Char) :=
  let (digits, rest) := digitsUpTo width (text.dropWhile Text.isBlank)
  if digits.isEmpty then none else some (Text.ofDigits digits, rest)

def year? (text : List Char) : Option (Int × List Char) :=
  match text.dropWhile Text.isBlank with
  | '-' :: rest => signed true rest
  | '+' :: rest => signed false rest
  | rest => (number? 4 rest).map fun (year, rest) => (year, rest)
where
  signed (negative : Bool) (text : List Char) : Option (Int × List Char) :=
    let (digits, rest) := Text.spanDigits text
    let year : Int := Text.ofDigits digits
    if digits.isEmpty then none else some (if negative then -year else year, rest)

def date? (text : List Char) : Option (CalendarDate × List Char) := do
  let (year, text) ← year? text
  let text ← expect? '-' text
  let (month, text) ← number? 2 text
  let text ← expect? '-' text
  let (day, text) ← number? 2 text
  some (⟨year, month, day⟩, text)

def withoutOffset? (text : List Char) : Option Moment := do
  let (date, text) ← date? text
  let text ← expect? 'T' text
  let (hour, text) ← number? 2 text
  let text ← expect? ':' text
  let (minute, text) ← number? 2 text
  let text ← expect? ':' text
  let (second, text) ← number? 2 text
  let (nanos, text) ← fraction? text
  let moment ← ofReading? ⟨date, hour, minute, second, nanos⟩ 0
  expectEnd? moment text

def midnight? (text : List Char) : Option Moment := do
  let (date, text) ← date? text
  let moment ← ofReading? ⟨date, 0, 0, 0, 0⟩ 0
  expectEnd? moment text

def read? (text : String) : Option Moment :=
  let characters := text.toList
  (withOffset? characters <|> withoutOffset? characters) <|> midnight? characters

end Moment

end EntityCursor
