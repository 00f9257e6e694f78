import RecordFilter.Number

/-!
# Numerals

The written form of a number in JSON and in the filter language: a sign, digits, digits behind
a point, and an exponent. `Numeral.scan?` takes the longest numeral from the front of a
character list. `Numeral.value?` is the number it denotes: an integer when it has neither point
nor exponent and fits, and otherwise a float that is computed quickly rather than rounded
correctly. The digits are gathered in 64 bits, the first digit that does not fit and those
behind it are dropped, and the result is scaled by one multiplication or division by a power of
ten (by several if the power is below the format's range). No numeral denotes an infinity.
-/

namespace RecordFilter

/-- The parts of a written number. -/
structure Numeral where
  /-- Whether a minus sign stands in front. -/
  negative : Bool
  /-- The digits in front of the point. -/
  whole : List Char
  /-- The digits behind the point. -/
  fraction : Option (List Char)
  /-- Whether the exponent has a minus sign, and its digits. -/
  exponent : Option (Bool × List Char)
deriving DecidableEq, Repr

namespace Numeral

/-! ### Scanning -/

/-- The longest run of digits at the front. -/
def digits (cs : List Char) : List Char := cs.takeWhile Char.isDigit

/-- The digits behind a point at the front, if there is a point with digits behind it. -/
def scanFraction? (cs : List Char) : Option (List Char) :=
  match cs with
  | '.' :: rest => if (digits rest).isEmpty then none else some (digits rest)
  | _ => none

/-- The number of characters that a fraction takes. -/
def fractionWidth (fraction : Option (List Char)) : Nat :=
  match fraction with
  | none => 0
  | some ds => ds.length + 1

/-- The exponent at the front behind its mark: whether it has a minus sign, its digits, and the
number of characters that it takes with its mark. -/
def scanPower? (cs : List Char) : Option (Bool × List Char × Nat) :=
  let (negative, width, rest) : Bool × Nat × List Char :=
    match cs with
    | '-' :: rest => (true, 2, rest)
    | '+' :: rest => (false, 2, rest)
    | _ => (false, 1, cs)
  if (digits rest).isEmpty then none
  else some (negative, digits rest, width + (digits rest).length)

/-- The exponent at the front, if it is complete, as `scanPower?` gives it. -/
def scanExponent? (cs : List Char) : Option (Bool × List Char × Nat) :=
  match cs with
  | mark :: rest => if mark = 'e' ∨ mark = 'E' then scanPower? rest else none
  | [] => none

/-- The digits, the point and the exponent at the front, with a sign that was in front of them,
and the number of characters that they take. -/
def scanUnsigned? (negative : Bool) (cs : List Char) : Option (Numeral × Nat) :=
  let whole := digits cs
  if whole.isEmpty then none
  else
    let fraction := scanFraction? (cs.drop whole.length)
    let width := whole.length + fractionWidth fraction
    match scanExponent? (cs.drop width) with
    | none => some (⟨negative, whole, fraction, none⟩, width)
    | some (minus, ds, more) => some (⟨negative, whole, fraction, some (minus, ds)⟩, width + more)

/-- The longest numeral at the front, and the number of characters that it takes. -/
def scan? (cs : List Char) : Option (Numeral × Nat) :=
  match cs with
  | '-' :: rest => (scanUnsigned? true rest).map fun r => (r.1, r.2 + 1)
  | _ => scanUnsigned? false cs

/-! ### Values -/

/-- Appends digits to a significand while it fits 64 bits, and counts those that are left. -/
def gather (significand : Nat) : List Char → Nat × Nat
  | [] => (significand, 0)
  | d :: ds =>
    let longer := significand * 10 + (d.toNat - 48)
    if longer < 0x10000000000000000 then gather longer ds else (significand, ds.length + 1)

/-- Divides by the greatest tabulated power of ten a number of times, or until nothing is left. -/
def sinkBy : Nat → Binary64 → Binary64
  | 0, x => x
  | steps + 1, x => if x.isZero then x else sinkBy steps (x / Binary64.powerOfTen 308)

/-- The float nearest to the significand, scaled by a power of ten; infinite if the power is
beyond the range of the format. -/
def scaled (significand : Nat) (exponent : Int) : Binary64 :=
  let x := Binary64.ofNat significand
  if 0 ≤ exponent then
    if x.isZero then x
    else if exponent ≤ 308 then x * Binary64.powerOfTen exponent.toNat
    else Binary64.infinity false
  else
    let k := exponent.natAbs
    let steps := (k - 1) / 308
    let low := sinkBy steps x
    if low.isZero then low else low / Binary64.powerOfTen (k - steps * 308)

/-- The float that a numeral denotes. -/
def floatValue (n : Numeral) : Binary64 :=
  let (significand, droppedWhole) := gather 0 n.whole
  let fraction := n.fraction.getD []
  let (significand, droppedFraction) := gather significand fraction
  let shift : Int :=
    match n.exponent with
    | none => 0
    | some (true, ds) => -(Nat.ofDigitChars 10 ds 0 : Int)
    | some (false, ds) => Nat.ofDigitChars 10 ds 0
  let x := scaled significand
    ((droppedWhole : Int) - ((fraction.length - droppedFraction : Nat) : Int) + shift)
  if n.negative then -x else x

/-- The integer that a numeral without point and exponent denotes. A minus sign in front of zero
makes it a float. -/
def integerValue? (n : Numeral) : Option Number :=
  let magnitude : Int := (Nat.ofDigitChars 10 n.whole 0 : Nat)
  if n.negative then
    if magnitude = 0 ∨ 0x8000000000000000 < magnitude then none else Number.ofInt? (-magnitude)
  else Number.ofInt? magnitude

/-- Whether a numeral starts with a zero that other digits follow. -/
def hasLeadingZero (n : Numeral) : Bool :=
  match n.whole with
  | '0' :: _ :: _ => true
  | _ => false

/-- The number that a numeral denotes. A leading zero and a value beyond the range of the format
are refused. -/
def value? (n : Numeral) : Option Number :=
  if n.hasLeadingZero then none
  else
    match n.fraction, n.exponent with
    | none, none =>
      match n.integerValue? with
      | some number => some number
      | none => Number.ofBinary64? n.floatValue
    | _, _ => Number.ofBinary64? n.floatValue

end Numeral

/-- The number at the front of a character list, and the number of characters that it takes. -/
def readNumber? (cs : List Char) : Option (Number × Nat) :=
  match Numeral.scan? cs with
  | none => none
  | some (numeral, width) => numeral.value?.map fun n => (n, width)

/-- The number that a whole text denotes. -/
def Number.ofText? (text : String) : Option Number :=
  match readNumber? text.toList with
  | some (n, width) => if width = text.length then some n else none
  | none => none

end RecordFilter
