import RecordFilter.Text.Digits

/-!
# Calendar dates

Days of the Gregorian calendar, extended to all years from -9999 to 9999. A date is written
with four digits of year, two of month and two of day, and a minus sign in front of negative
years; `readDate?` also accepts a plus sign.
-/

namespace RecordFilter.Calendar

/-- Whether a year has a 29th of February: every fourth year, of the hundreds every fourth. -/
def isLeapYear (year : Int) : Bool :=
  year % 4 == 0 && (year % 100 != 0 || year % 400 == 0)

/-- The number of days of a month that counts from one. -/
def daysInMonth (year : Int) (month : Nat) : Nat :=
  if month = 2 then if isLeapYear year then 29 else 28
  else if month = 4 ∨ month = 6 ∨ month = 9 ∨ month = 11 then 30
  else 31

/-- A day of the calendar. -/
structure Date where
  year : Int
  month : Nat
  day : Nat
  year_range : -9999 ≤ year ∧ year ≤ 9999
  month_range : 1 ≤ month ∧ month ≤ 12
  day_range : 1 ≤ day ∧ day ≤ daysInMonth year month
deriving DecidableEq

namespace Date

/-- The date with a given year, month and day, if the calendar has it. -/
def of? (year : Int) (month day : Nat) : Option Date :=
  if h : (-9999 ≤ year ∧ year ≤ 9999) ∧ (1 ≤ month ∧ month ≤ 12) ∧
      (1 ≤ day ∧ day ≤ daysInMonth year month) then
    some ⟨year, month, day, h.1, h.2.1, h.2.2⟩
  else none

/-- The date a number of days after 1 January 1970. Days are counted from 1 March of year 0,
in eras of 400 years, so that a leap day ends a year. -/
def ofDayNumber? (n : Int) : Option Date :=
  let days := n + 719468
  let era := days.fdiv 146097
  let dayOfEra := (days.fmod 146097).toNat
  let yearOfEra := (dayOfEra - dayOfEra / 1460 + dayOfEra / 36524 - dayOfEra / 146096) / 365
  let dayOfYear := dayOfEra - (365 * yearOfEra + yearOfEra / 4 - yearOfEra / 100)
  let monthFromMarch := (5 * dayOfYear + 2) / 153
  let day := dayOfYear - (153 * monthFromMarch + 2) / 5 + 1
  let month := if monthFromMarch < 10 then monthFromMarch + 3 else monthFromMarch - 9
  let year := era * 400 + yearOfEra + (if month ≤ 2 then 1 else 0)
  of? year month day

/-- A year as dates write it. -/
def yearChars (year : Int) : List Char :=
  (if year < 0 then ['-'] else []) ++ Text.padded 4 year.natAbs

/-- The written form of a date. -/
def chars (d : Date) : List Char :=
  yearChars d.year ++ '-' :: (Text.padded 2 d.month ++ '-' :: Text.padded 2 d.day)

/-- The written form of a date. -/
def text (d : Date) : String := String.ofList d.chars

end Date

/-- The sign in front of a year, if there is one: whether it is a minus. -/
def readSign (cs : List Char) : Bool × List Char :=
  match cs with
  | '-' :: rest => (true, rest)
  | '+' :: rest => (false, rest)
  | _ => (false, cs)

/-- The date at the front of a character list, its year without a sign, and what follows. -/
def readUnsignedDate? (negative : Bool) (cs : List Char) : Option (Date × List Char) := do
  let (year, cs) ← Text.readDigits? 4 cs
  let cs ← Text.skip? '-' cs
  let (month, cs) ← Text.readDigits? 2 cs
  let cs ← Text.skip? '-' cs
  let (day, cs) ← Text.readDigits? 2 cs
  let date ← Date.of? (if negative then -(year : Int) else year) month day
  return (date, cs)

/-- The date that a whole text denotes. -/
def readDate? (text : String) : Option Date :=
  let (negative, cs) := readSign text.toList
  match readUnsignedDate? negative cs with
  | some (date, []) => some date
  | _ => none

end RecordFilter.Calendar
