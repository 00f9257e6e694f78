/-!
# Runs of digits

Decimal numbers of a fixed width, as dates and times have them: written with leading zeros and
read back from exactly as many digits. Digits are the ten of ASCII.
-/

namespace RecordFilter.Text

/-- A number with leading zeros up to a width, and with more digits if it needs them. -/
def padded (width n : Nat) : List Char :=
  let digits := Nat.toDigits 10 n
  List.replicate (width - digits.length) '0' ++ digits

/-- The number that the first characters denote if there are as many and all are digits, and
what follows them. -/
def readDigits? (count : Nat) (cs : List Char) : Option (Nat × List Char) :=
  let digits := cs.take count
  if digits.length = count ∧ digits.all Char.isDigit then
    some (Nat.ofDigitChars 10 digits 0, cs.drop count)
  else none

/-- What follows a given character at the front. -/
def skip? (c : Char) : List Char → Option (List Char)
  | [] => none
  | d :: rest => if d = c then some rest else none

end RecordFilter.Text
