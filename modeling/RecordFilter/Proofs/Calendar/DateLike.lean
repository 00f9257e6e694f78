import RecordFilter.Calendar.Timestamp
import RecordFilter.Proofs.Text.Digits

/-!
# The forms of dates and timestamps

A written date is read back as the date that it is (`readDate?_text`). The RFC 3339 form of a
timestamp is in the form of one (`isTimestamp_text`), and the form that timestamps have otherwise
is in the form of nothing (`isDateLike_longText`): behind its time of day stands a space, which is
no offset, and behind its date something stands at all.
-/

namespace RecordFilter.Calendar

open Text (padded readDigits?_padded_two isDigit_of_mem_padded)

/-! ### Dates -/

theorem daysInMonth_le (year : Int) (month : Nat) : daysInMonth year month ≤ 31 := by
  unfold daysInMonth
  split
  · split <;> omega
  · split <;> omega

namespace Date

variable (d : Date)

theorem of?_self : of? d.year d.month d.day = some d :=
  dif_pos ⟨d.year_range, d.month_range, d.day_range⟩

/-- The written form of a date without the sign of its year. -/
def unsignedChars : List Char :=
  padded 4 d.year.natAbs ++ '-' :: (padded 2 d.month ++ '-' :: padded 2 d.day)

theorem chars_of_nonneg {d : Date} (h : 0 ≤ d.year) : d.chars = d.unsignedChars := by
  simp [chars, yearChars, unsignedChars, Int.not_lt.2 h]

theorem chars_of_neg {d : Date} (h : d.year < 0) : d.chars = '-' :: d.unsignedChars := by
  simp [chars, yearChars, unsignedChars, h]

/-- A date without a sign starts with a digit. -/
theorem exists_unsignedChars_eq_cons :
    ∃ c cs, d.unsignedChars = c :: cs ∧ c.isDigit = true := by
  have hyear := d.year_range
  have hlength : (padded 4 d.year.natAbs).length = 4 :=
    Text.length_padded (Text.length_toDigits_le_four (by omega))
  cases hdigits : padded 4 d.year.natAbs with
  | nil => simp [hdigits] at hlength
  | cons c cs =>
    have hc : c ∈ padded 4 d.year.natAbs := hdigits ▸ List.mem_cons_self
    exact ⟨c, _, by rw [unsignedChars, hdigits]; rfl, isDigit_of_mem_padded hc⟩

theorem readUnsignedDate?_unsignedChars (rest : List Char) :
    readUnsignedDate? (decide (d.year < 0)) (d.unsignedChars ++ rest) = some (d, rest) := by
  have hyear := d.year_range
  have hmonth := d.month_range
  have hday := d.day_range
  have hdays := daysInMonth_le d.year d.month
  have hreadYear := Text.readDigits?_padded_four (n := d.year.natAbs) (by omega)
  have hreadMonth := readDigits?_padded_two (n := d.month) (by omega)
  have hreadDay := readDigits?_padded_two (n := d.day) (by omega)
  have hsigned : (if decide (d.year < 0) = true then -(d.year.natAbs : Int) else d.year.natAbs) =
      d.year := by
    by_cases hneg : d.year < 0
    · rw [if_pos (decide_eq_true hneg)]
      omega
    · rw [if_neg (mt of_decide_eq_true hneg)]
      omega
  simp only [readUnsignedDate?, unsignedChars, List.append_assoc, List.cons_append, hreadYear,
    hreadMonth, hreadDay, Text.skip?, if_true, Option.bind_eq_bind, Option.bind_some, hsigned,
    of?_self]
  rfl

end Date

theorem readSign_chars (d : Date) (rest : List Char) :
    readSign (d.chars ++ rest) = (decide (d.year < 0), d.unsignedChars ++ rest) := by
  by_cases hneg : d.year < 0
  · rw [Date.chars_of_neg hneg, decide_eq_true hneg]
    rfl
  · rw [Date.chars_of_nonneg (Int.not_lt.1 hneg), decide_eq_false hneg]
    obtain ⟨c, cs, hchars, hdigit⟩ := d.exists_unsignedChars_eq_cons
    rw [hchars, List.cons_append]
    unfold readSign
    split <;> simp_all

/-- **A date is read back** from its text. -/
theorem readDate?_text (d : Date) : readDate? d.text = some d := by
  have hsign := readSign_chars d []
  have hread := d.readUnsignedDate?_unsignedChars []
  rw [List.append_nil] at hsign
  rw [readDate?, Date.text, String.toList_ofList, hsign]
  simp only [hread]

/-! ### Timestamps -/

theorem isDigit_of_mem_fractionDigits {nanosecond : Nat} {c : Char}
    (h : c ∈ fractionDigits nanosecond) : c.isDigit = true := by
  rw [fractionDigits, List.mem_reverse] at h
  have hmem := (List.dropWhile_sublist _).subset h
  exact isDigit_of_mem_padded (List.mem_reverse.1 hmem)

/-- A fraction is skipped up to the first character that is no digit. -/
theorem skipFraction?_point {fraction : List Char} {c : Char} (hne : fraction ≠ [])
    (hfraction : ∀ d ∈ fraction, d.isDigit = true) (hc : c.isDigit = false) (rest : List Char) :
    skipFraction? ('.' :: (fraction ++ c :: rest)) = some (c :: rest) := by
  cases fraction with
  | nil => exact absurd rfl hne
  | cons d ds =>
    have hd : d.isDigit = true := hfraction d List.mem_cons_self
    have hds : (ds ++ c :: rest).dropWhile Char.isDigit = c :: rest := by
      rw [List.dropWhile_append_of_pos fun x hx => hfraction x (List.mem_cons_of_mem _ hx),
        List.dropWhile_cons_of_neg (by simp [hc])]
    simp [skipFraction?, hd, hds]

/-- A fraction that is left out when it is zero is skipped all the same. -/
theorem skipFraction?_append {fraction : List Char} {c : Char}
    (hfraction : ∀ d ∈ fraction, d.isDigit = true) (hdigit : c.isDigit = false)
    (hpoint : c ≠ '.') (rest : List Char) :
    skipFraction? ((if fraction.isEmpty then [] else '.' :: fraction) ++ c :: rest) =
      some (c :: rest) := by
  cases fraction with
  | nil => simp [skipFraction?, hpoint]
  | cons d ds => exact skipFraction?_point (List.cons_ne_nil d ds) hfraction hdigit rest

theorem readOffset?_signed {c : Char} (hc : c = '+' ∨ c = '-') {hour minute : Nat}
    (hhour : hour ≤ 23) (hminute : minute ≤ 59) :
    readOffset? (c :: (padded 2 hour ++ ':' :: padded 2 minute)) =
      some (if c = '-' then -((hour * 60 + minute : Nat) : Int) else (hour * 60 + minute : Nat),
        []) := by
  have hreadHour := readDigits?_padded_two (n := hour) (by omega)
  have hreadMinute := readDigits?_padded_two (n := minute) (by omega) []
  rw [List.append_nil] at hreadMinute
  have hletter : ¬ (c = 'Z' ∨ c = 'z') := by
    rcases hc with rfl | rfl <;> decide
  rw [readOffset?]
  simp [hletter, hc, hreadHour, hreadMinute, Text.skip?, hhour, hminute]

/-- An offset of less than a day is read to its end. -/
theorem exists_readOffset?_eq_some {offset : Int} (h : offset.natAbs < 86400) :
    ∃ c cs minutes, (if offset = 0 then ['Z'] else Timestamp.offsetChars offset) = c :: cs ∧
      c.isDigit = false ∧ c ≠ '.' ∧ readOffset? (c :: cs) = some (minutes, []) := by
  by_cases hzero : offset = 0
  · exact ⟨'Z', [], 0, by simp [hzero], by decide, by decide, by simp [readOffset?]⟩
  · have hhours : offset.natAbs / 3600 ≤ 23 := by omega
    have hminutes : offset.natAbs / 60 % 60 ≤ 59 := by omega
    rw [if_neg hzero, Timestamp.offsetChars]
    by_cases hneg : offset < 0
    · rw [if_pos hneg]
      exact ⟨'-', _, _, rfl, by decide, by decide,
        readOffset?_signed (.inr rfl) hhours hminutes⟩
    · rw [if_neg hneg]
      exact ⟨'+', _, _, rfl, by decide, by decide,
        readOffset?_signed (.inl rfl) hhours hminutes⟩

namespace Timestamp

/-- **The RFC 3339 form is that of a timestamp**, where it can hold the timestamp. -/
theorem isTimestamp_text {t : Timestamp} (h : t.isExpressible = true) :
    isTimestamp t.text = true := by
  obtain ⟨hyear, hoffset⟩ : 0 ≤ t.date.year ∧ t.offset.natAbs < 86400 := by
    simp only [isExpressible, Bool.and_eq_true, decide_eq_true_eq] at h
    exact h.1
  have hhour := t.time.hour_lt
  have hminute := t.time.minute_lt
  have hsecond := t.time.second_lt
  obtain ⟨c, cs, minutes, hchars, hdigit, hpoint, hreadOffset⟩ :=
    exists_readOffset?_eq_some hoffset
  have hreadDate := t.date.readUnsignedDate?_unsignedChars
  rw [decide_eq_false (Int.not_lt.2 hyear)] at hreadDate
  have hreadHour := readDigits?_padded_two (n := t.time.hour) (by omega)
  have hreadMinute := readDigits?_padded_two (n := t.time.minute) (by omega)
  have hreadSecond := readDigits?_padded_two (n := t.time.second) (by omega)
  have hfraction : ∀ d ∈ fractionDigits t.time.nanosecond, d.isDigit = true :=
    fun _ hd => isDigit_of_mem_fractionDigits hd
  have hskip := skipFraction?_append hfraction hdigit hpoint cs
  rw [isTimestamp, text, String.toList_ofList, Timestamp.chars, Date.chars_of_nonneg hyear, hchars]
  have hseparator : 'T'.utf8Size = 1 := rfl
  simp only [List.append_assoc, hreadDate, hreadHour, hreadMinute, hreadSecond, hskip, hreadOffset,
    hseparator, Text.skip?, if_true, Option.bind_eq_bind, Option.bind_some]
  simp [hhour, hminute, hsecond]

/-- The long form has at least one digit of fraction. -/
theorem digits_longFraction (nanosecond : Nat) :
    (if (fractionDigits nanosecond).isEmpty then ['0'] else fractionDigits nanosecond) ≠ [] ∧
    ∀ d ∈ (if (fractionDigits nanosecond).isEmpty then ['0'] else fractionDigits nanosecond),
      d.isDigit = true := by
  by_cases hempty : (fractionDigits nanosecond).isEmpty
  · simp [hempty]
  · rw [if_neg hempty]
    exact ⟨mt List.isEmpty_iff.2 hempty, fun d => isDigit_of_mem_fractionDigits⟩

/-- An hour of the long form is read if it has two digits, and not if it has one. -/
theorem readDigits?_hour {hour : Nat} (h : hour < 24) (rest : List Char) :
    Text.readDigits? 2 (Nat.toDigits 10 hour ++ ':' :: rest) = none ∨
      Text.readDigits? 2 (Nat.toDigits 10 hour ++ ':' :: rest) = some (hour, ':' :: rest) := by
  by_cases hten : 10 ≤ hour
  · right
    rw [← Text.padded_of_le (Text.two_le_length_toDigits hten)]
    exact readDigits?_padded_two (by omega) _
  · left
    rw [Nat.toDigits_of_lt_base (Nat.not_le.1 hten)]
    simp [Text.readDigits?]

/-- The long form is not that of a timestamp. -/
theorem isTimestamp_longText (t : Timestamp) : isTimestamp t.longText = false := by
  rw [isTimestamp, longText, String.toList_ofList, longChars]
  by_cases hneg : t.date.year < 0
  · -- timestamps have no sign in front of the year
    rw [Date.chars_of_neg hneg]
    simp [readUnsignedDate?, Text.readDigits?_eq_none]
  · have hminute := t.time.minute_lt
    have hsecond := t.time.second_lt
    have hreadDate := t.date.readUnsignedDate?_unsignedChars
    rw [decide_eq_false hneg] at hreadDate
    have hreadMinute :=
      readDigits?_padded_two (n := t.time.minute) (by omega)
    have hreadSecond :=
      readDigits?_padded_two (n := t.time.second) (by omega)
    have hfraction := digits_longFraction t.time.nanosecond
    have hskip := skipFraction?_point (c := ' ') hfraction.1 hfraction.2 (by decide)
    have hseparator : ' '.utf8Size = 1 := rfl
    rw [Date.chars_of_nonneg (Int.not_lt.1 hneg)]
    simp only [hreadDate, hseparator, if_true, Option.bind_eq_bind, Option.bind_some]
    rcases readDigits?_hour t.time.hour_lt _ with hreadHour | hreadHour
    · rw [hreadHour]
      rfl
    · -- everything is read up to the fraction, and then an offset should follow
      simp only [hreadHour, hreadMinute, hreadSecond, Text.skip?, if_true, Option.bind_some, hskip]
      rfl

/-- **The long form is in no form of dates**: what stands behind its date is no offset. -/
theorem isDateLike_longText (t : Timestamp) : isDateLike t.longText = false := by
  have hdate : readDate? t.longText = none := by
    rw [readDate?, longText, String.toList_ofList, longChars, readSign_chars]
    simp only [t.date.readUnsignedDate?_unsignedChars]
  rw [isDateLike, isTimestamp_longText, hdate]
  rfl

end Timestamp

end RecordFilter.Calendar
