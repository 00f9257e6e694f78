import RecordFilter.Decimal.Layout

/-!
# Numbers

The numbers of the filter language and of JSON: integers that fit 64 bits, signed or unsigned,
and finite binary64 numbers. The two kinds stay apart, so `1` and `1.0` are different numbers.
-/

namespace RecordFilter

/-- The digits of an integer behind its sign, which only negative ones have. -/
def integerText (n : Int) : String := if n < 0 then "-" ++ n.natAbs.repr else n.natAbs.repr

/-- A number: an integer of at most 64 bits or a finite binary64 number. -/
inductive Number where
  /-- An integer that a signed or an unsigned word of 64 bits holds. -/
  | integer (n : Int) (fits : -0x8000000000000000 ≤ n ∧ n < 0x10000000000000000)
  /-- A finite binary64 number. -/
  | float (x : Binary64) (finite : x.isFinite = true)
deriving DecidableEq

namespace Number

/-- The integer as a number, if it fits 64 bits. -/
def ofInt? (n : Int) : Option Number :=
  if fits : -0x8000000000000000 ≤ n ∧ n < 0x10000000000000000 then some (.integer n fits) else none

/-- The binary64 number as a number, if it is finite. -/
def ofBinary64? (x : Binary64) : Option Number :=
  if finite : x.isFinite = true then some (.float x finite) else none

/-- Equality of values within a kind: the two zeros among the floats are equal. -/
def sameValue : Number → Number → Bool
  | integer n _, integer n' _ => n == n'
  | float x _, float x' _ => x.sameValue x'
  | _, _ => false

/-- The text of a number when floats are laid out in a given way. -/
def textIn (l : Decimal.Layout) : Number → String
  | integer n _ => integerText n
  | float x _ => x.text l

/-- The text of a number in JSON and in the filter language. -/
def text (n : Number) : String := n.textIn .json

end Number

end RecordFilter
