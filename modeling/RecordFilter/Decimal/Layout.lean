import RecordFilter.Decimal.Shortest

/-!
# Written numbers

How a decimal is laid out as text: with a point among its digits, or in scientific form with an
exponent. The decisions that a format takes are the fields of `Decimal.Layout`; the three
formats of this library are the layouts `json`, `yaml` and `plain`.
-/

namespace RecordFilter

namespace Decimal

/-- What a number format decides. -/
structure Layout where
  /-- The exponents of the leading digit that are written with a point, as a closed range;
  without it all are. -/
  positional : Option (Int × Int)
  /-- Whether integral values keep a zero behind the point. -/
  keepsPoint : Bool
  /-- Whether positive exponents have a sign. -/
  signsExponent : Bool
  /-- Which of two equally near shortest decimals is written. -/
  tie : Tie
deriving DecidableEq, Repr

namespace Layout

/-- JSON texts: `100.0`, `0.00001`, `1e+16`, `1e-6`. -/
def json : Layout := ⟨some (-5, 15), true, true, .toEven⟩

/-- YAML texts: as in JSON, without the sign of a positive exponent (`1e16`). -/
def yaml : Layout := ⟨some (-5, 15), true, false, .toEven⟩

/-- Plain texts never have an exponent: `1000000000000000000000`, `0.0000001`, `1`. -/
def plain : Layout := ⟨none, false, false, .up⟩

/-- The digits of a decimal with its point. -/
def positionalText (l : Layout) (d : Decimal) : String :=
  let digits := Nat.toDigits 10 d.digits
  let tail := if l.keepsPoint then ['.', '0'] else []
  let places := (-d.exponent).toNat
  if 0 ≤ d.exponent then String.ofList (digits ++ List.replicate d.exponent.toNat '0' ++ tail)
  else if places < digits.length then
    let whole := digits.length - places
    String.ofList (digits.take whole ++ '.' :: digits.drop whole)
  else String.ofList ('0' :: '.' :: (List.replicate (places - digits.length) '0' ++ digits))

/-- The digits of a decimal with the point behind the first one and the exponent that this
point asks for. -/
def scientificText (l : Layout) (d : Decimal) (leading : Int) : String :=
  let digits := Nat.toDigits 10 d.digits
  let mantissa :=
    match digits with
    | first :: rest@(_ :: _) => first :: '.' :: rest
    | _ => digits
  let sign := if leading < 0 then "-" else if l.signsExponent then "+" else ""
  String.ofList mantissa ++ "e" ++ sign ++ leading.natAbs.repr

/-- The text of a decimal. -/
def text (l : Layout) (d : Decimal) : String :=
  let leading : Int := d.exponent + (Nat.toDigits 10 d.digits).length - 1
  match l.positional with
  | none => l.positionalText d
  | some (least, greatest) =>
    if least ≤ leading ∧ leading ≤ greatest then l.positionalText d
    else l.scientificText d leading

end Layout

end Decimal

/-- The text of a finite number in a layout. -/
def Binary64.text (l : Decimal.Layout) (x : Binary64) : String :=
  (if x.negative then "-" else "") ++ l.text (Decimal.shortest x l.tie)

/-- The plain text of any number: digits without an exponent, `inf`, `-inf` or `NaN`. -/
def Binary64.plainText (x : Binary64) : String :=
  if x.isNaN then "NaN"
  else if x.isFinite then x.text .plain
  else if x.negative then "-inf" else "inf"

end RecordFilter
