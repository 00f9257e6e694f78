import RecordFilter.Calendar.Date

/-!
# Timestamps

Instants as clocks at a given offset from universal time show them. `Timestamp.text` is the
RFC 3339 form, which years outside 0 to 9999, offsets of a day or more and offsets with seconds
do not have; such timestamps have `Timestamp.longText` only. `readTimestamp?` decides which
texts are timestamps: any one-byte separator may stand between date and time, and second 60 is
allowed in the last minute of a month of universal time.
-/

namespace RecordFilter.Calendar

/-- The time of day, up to nanoseconds. -/
structure TimeOfDay where
  hour : Nat
  minute : Nat
  second : Nat
  nanosecond : Nat
  hour_lt : hour < 24
  minute_lt : minute < 60
  second_lt : second < 60
  nanosecond_lt : nanosecond < 1000000000
deriving DecidableEq

/-- A date and a time of day at an offset from universal time, in seconds. -/
structure Timestamp where
  date : Date
  time : TimeOfDay
  offset : Int
  offset_range : -93599 ≤ offset ∧ offset ≤ 93599
deriving DecidableEq

/-- The time of day with a given hour, minute, second and nanosecond, if clocks have it. -/
def TimeOfDay.of? (hour minute second nanosecond : Nat) : Option TimeOfDay :=
  if h : hour < 24 ∧ minute < 60 ∧ second < 60 ∧ nanosecond < 1000000000 then
    some ⟨hour, minute, second, nanosecond, h.1, h.2.1, h.2.2.1, h.2.2.2⟩
  else none

/-- The instant a number of nanoseconds after the start of 1970 in universal time, as it is
shown at an offset in seconds. -/
def Timestamp.ofUnixNanoseconds? (nanoseconds : Int) (offset : Int) : Option Timestamp := do
  let shown := nanoseconds + offset * 1000000000
  let seconds := shown.fdiv 1000000000
  let secondOfDay := (seconds.fmod 86400).toNat
  let date ← Date.ofDayNumber? (seconds.fdiv 86400)
  let time ← TimeOfDay.of? (secondOfDay / 3600) (secondOfDay / 60 % 60) (secondOfDay % 60)
    (shown.fmod 1000000000).toNat
  if h : -93599 ≤ offset ∧ offset ≤ 93599 then return ⟨date, time, offset, h⟩ else none

/-! ### Writing -/

/-- The nine digits of a nanosecond without the zeros at their end. -/
def fractionDigits (nanosecond : Nat) : List Char :=
  ((Text.padded 9 nanosecond).reverse.dropWhile (· == '0')).reverse

namespace Timestamp

/-- Whether the RFC 3339 form can hold the timestamp. -/
def isExpressible (t : Timestamp) : Bool :=
  0 ≤ t.date.year && t.offset.natAbs < 86400 && t.offset.natAbs % 60 == 0

/-- The hours and the minutes of an offset behind its sign. -/
def offsetChars (offset : Int) : List Char :=
  (if offset < 0 then '-' else '+') :: (Text.padded 2 (offset.natAbs / 3600) ++
    ':' :: Text.padded 2 (offset.natAbs / 60 % 60))

/-- The RFC 3339 form. -/
def chars (t : Timestamp) : List Char :=
  let fraction := fractionDigits t.time.nanosecond
  t.date.chars ++ 'T' :: (Text.padded 2 t.time.hour ++ ':' :: (Text.padded 2 t.time.minute ++
    ':' :: (Text.padded 2 t.time.second ++ (if fraction.isEmpty then [] else '.' :: fraction) ++
      (if t.offset = 0 then ['Z'] else offsetChars t.offset))))

/-- The form that every timestamp has: the hour without a leading zero, at least one digit of
fraction, and the offset with its seconds. -/
def longChars (t : Timestamp) : List Char :=
  let fraction := fractionDigits t.time.nanosecond
  t.date.chars ++ ' ' :: (Nat.toDigits 10 t.time.hour ++ ':' :: (Text.padded 2 t.time.minute ++
    ':' :: (Text.padded 2 t.time.second ++ '.' :: ((if fraction.isEmpty then ['0'] else fraction) ++
      ' ' :: (offsetChars t.offset ++ ':' :: Text.padded 2 (t.offset.natAbs % 60))))))

/-- The RFC 3339 form. -/
def text (t : Timestamp) : String := String.ofList t.chars

/-- The form that every timestamp has. -/
def longText (t : Timestamp) : String := String.ofList t.longChars

end Timestamp

/-! ### Reading -/

/-- Skips a point and the digits behind it if a point is there; at least one must follow. -/
def skipFraction? (cs : List Char) : Option (List Char) :=
  match cs with
  | '.' :: rest =>
    if (rest.takeWhile Char.isDigit).isEmpty then none else some (rest.dropWhile Char.isDigit)
  | _ => some cs

/-- The minutes of the offset at the front, and what follows it. -/
def readOffset? (cs : List Char) : Option (Int × List Char) :=
  match cs with
  | [] => none
  | c :: rest =>
    if c = 'Z' ∨ c = 'z' then some (0, rest)
    else if c = '+' ∨ c = '-' then do
      let (hour, rest) ← Text.readDigits? 2 rest
      let rest ← Text.skip? ':' rest
      let (minute, rest) ← Text.readDigits? 2 rest
      let minutes : Int := (hour * 60 + minute : Nat)
      if hour ≤ 23 ∧ minute ≤ 59 then return (if c = '-' then -minutes else minutes, rest) else none
    else none

/-- Whether the minute that starts at a local hour and minute is the last one of a month of
universal time. -/
def endsMonth (date : Date) (hour minute : Nat) (offsetMinutes : Int) : Bool :=
  let minutes : Int := ((hour * 60 + minute : Nat) : Int) - offsetMinutes
  let last := daysInMonth date.year date.month
  if minutes = 1439 then date.day == last
  else if minutes = -1 then date.day == 1
  else if minutes = 2879 then date.day + 1 == last
  else false

/-- Whether a whole text is a timestamp. -/
def isTimestamp (text : String) : Bool :=
  let parsed : Option Unit := do
    let (date, cs) ← readUnsignedDate? false text.toList
    let cs ← match cs with
      | separator :: rest => if separator.utf8Size = 1 then some rest else none
      | [] => none
    let (hour, cs) ← Text.readDigits? 2 cs
    let cs ← Text.skip? ':' cs
    let (minute, cs) ← Text.readDigits? 2 cs
    let cs ← Text.skip? ':' cs
    let (second, cs) ← Text.readDigits? 2 cs
    let cs ← skipFraction? cs
    let (offset, cs) ← readOffset? cs
    if hour < 24 ∧ minute < 60 ∧ (second < 60 ∨ second = 60 ∧ endsMonth date hour minute offset) ∧
        cs.isEmpty then some () else none
  parsed.isSome

/-- Whether a whole text is a date or a timestamp. -/
def isDateLike (text : String) : Bool := isTimestamp text || (readDate? text).isSome

end RecordFilter.Calendar
