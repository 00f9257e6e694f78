import RecordFilter.Decimal.Layout
import RecordFilter.Text.Quoted

/-!
# Reading numbers from texts

Numbers as settings and YAML scalars spell them. `readInteger?` reads the digits of a base that
denote an integer of 64 bits with a sign. `Binary64.ofText?` reads a decimal with or without a
point and an exponent, or a word for an infinity or a NaN, and rounds correctly: it is the value
nearest to the decimal (`Decimal.nearest`). Either number may have one sign, and nothing else
may surround it.
-/

namespace RecordFilter

/-! ### Integers -/

/-- The number that digits of a base denote, if there are any and all are digits. -/
def readDigitsIn? (base : Nat) (cs : List Char) : Option Nat :=
  if cs.isEmpty then none
  else
    cs.foldlM (fun n c =>
      match Text.hexValue? c with
      | some d => if d < base then some (n * base + d) else none
      | none => none) 0

/-- A sign at the front, and what follows it. -/
def readSign (cs : List Char) : Bool × List Char :=
  match cs with
  | '-' :: rest => (true, rest)
  | '+' :: rest => (false, rest)
  | _ => (false, cs)

/-- The integer that digits of a base behind an optional sign denote, if 64 bits hold it. -/
def readInteger? (base : Nat) (cs : List Char) : Option Int :=
  let (negative, digits) := readSign cs
  match readDigitsIn? base digits with
  | none => none
  | some n =>
    let value : Int := if negative then -n else n
    if -0x8000000000000000 ≤ value ∧ value < 0x8000000000000000 then some value else none

/-! ### Decimals -/

/-- The binary64 number of a given sign nearest to a decimal. A magnitude far beyond the range of
the format is not computed: the leading digit tells. -/
def Decimal.nearest (negative : Bool) (d : Decimal) : Binary64 :=
  let size : Int := d.exponent + (Nat.toDigits 10 d.digits).length
  if d.digits = 0 ∨ size < -400 then .zero negative
  else if 400 < size then .infinity negative
  else .ofRatio negative (d.digits * Nat.pow 10 d.exponent.toNat)
    (Nat.pow 10 (-d.exponent).toNat) 0

namespace Decimal

/-- The power of ten that the characters behind the digits denote: none, or a mark with an
integer behind it. -/
def readPower? : List Char → Option Int
  | [] => some 0
  | mark :: cs =>
    if mark = 'e' ∨ mark = 'E' then
      let (negative, digits) := readSign cs
      (readDigitsIn? 10 digits).map fun n => if negative then -(n : Int) else n
    else none

/-- The decimal that characters without a sign denote: digits with a point before, among or
behind them, or without one, and an exponent. -/
def ofChars? (cs : List Char) : Option Decimal :=
  let whole := cs.takeWhile Char.isDigit
  let behind := cs.drop whole.length
  let (fraction, rest) :=
    match behind with
    | '.' :: more => (more.takeWhile Char.isDigit, more.dropWhile Char.isDigit)
    | _ => ([], behind)
  match readDigitsIn? 10 (whole ++ fraction), readPower? rest with
  | some digits, some power => some ⟨digits, power - fraction.length⟩
  | _, _ => none

end Decimal

/-- The number that a word without a sign denotes. -/
def Binary64.ofWord? (negative : Bool) (cs : List Char) : Option Binary64 :=
  match String.ofList (cs.map Char.toLower) with
  | "inf" | "infinity" => some (.infinity negative)
  | "nan" => some (if negative then -Binary64.nan else Binary64.nan)
  | _ => none

/-- The binary64 number that a text denotes. -/
def Binary64.ofText? (text : String) : Option Binary64 :=
  let (negative, cs) := readSign text.toList
  match Binary64.ofWord? negative cs with
  | some x => some x
  | none => (Decimal.ofChars? cs).map (Decimal.nearest negative)

end RecordFilter
