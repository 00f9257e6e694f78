/-!
# Binary floating-point numbers

The numbers of the IEEE 754 binary64 format, held as a sign and the rank of the magnitude among
the 2⁶³ patterns without a sign, which come in the order of the values they denote. All
arithmetic is exact arithmetic on natural numbers that is rounded once: to the nearest value,
an exact tie to the neighbour with the even rank (`Binary64.rankOfRatio`). Fixed powers of two are
in hexadecimal: 2⁵² is 0x10000000000000 and 2⁶³ is 0x8000000000000000.
-/

namespace RecordFilter

/-- A number of the binary64 format: a sign and the rank of its magnitude. -/
structure Binary64 where
  /-- Whether the sign is set; zeros and NaNs have a sign too. -/
  negative : Bool
  /-- The pattern without the sign: 52 low bits of fraction below 11 bits of exponent. -/
  rank : Fin 0x8000000000000000
deriving DecidableEq

namespace Binary64

/-! ### Decoding -/

/-- The rank of infinity; smaller ranks are finite and larger ones are NaNs. -/
def infinityRank : Nat := 2047 * 0x10000000000000

/-- The number whose pattern is a natural number below 2⁶⁴. -/
def ofBits (bits : Nat) : Binary64 where
  negative := bits / 0x8000000000000000 % 2 == 1
  rank := ⟨bits % 0x8000000000000000, Nat.mod_lt _ (by decide)⟩

/-- Whether the number is neither infinite nor a NaN. -/
def isFinite (x : Binary64) : Bool := x.rank.val < infinityRank

/-- Whether the number is a NaN. -/
def isNaN (x : Binary64) : Bool := infinityRank < x.rank.val

/-- Whether the number is one of the two zeros. -/
def isZero (x : Binary64) : Bool := x.rank.val == 0

/-- Equality of values: the zeros are equal and a NaN equals nothing. -/
def sameValue (x y : Binary64) : Bool :=
  !x.isNaN && !y.isNaN && x.rank == y.rank && (x.negative == y.negative || x.isZero)

/-- The integer `m` when the magnitude of a finite number is `m * 2 ^ x.scale`. -/
def significand (x : Binary64) : Nat :=
  let fraction := x.rank.val % 0x10000000000000
  if x.rank.val < 0x10000000000000 then fraction else 0x10000000000000 + fraction

/-- The power of two that belongs to the significand. -/
def scale (x : Binary64) : Int :=
  if x.rank.val < 0x10000000000000 then -1074 else (x.rank.val / 0x10000000000000 : Nat) - 1075

/-! ### Rounding -/

/-- The quotient of two natural numbers rounded to the nearest one, a tie to the even one. -/
def roundQuotient (num den : Nat) : Nat :=
  let q := num / den
  match compare (2 * (num % den)) den with
  | .lt => q
  | .gt => q + 1
  | .eq => q + q % 2

/-- The scale at which a positive quotient has 53 binary digits before the point, or the least
scale of the format if that is greater. -/
def scaleOfRatio (num den : Nat) : Int :=
  let e : Int := num.log2 - den.log2
  let digitFewer : Bool := num * Nat.pow 2 (-e).toNat < den * Nat.pow 2 e.toNat
  max (-1074) (if digitFewer then e - 53 else e - 52)

/-- The rank of the magnitude nearest to `num / den`. -/
def rankOfRatio (num den : Nat) : Fin 0x8000000000000000 :=
  let rank :=
    if num = 0 then 0
    else
      let q := scaleOfRatio num den
      (q + 1074).toNat * 0x10000000000000 +
        roundQuotient (num * Nat.pow 2 (-q).toNat) (den * Nat.pow 2 q.toNat)
  ⟨min rank infinityRank, Nat.lt_of_le_of_lt (Nat.min_le_right _ _) (by decide)⟩

/-- The number of a given sign nearest to `num / den * 2 ^ e`. -/
def ofRatio (negative : Bool) (num den : Nat) (e : Int) : Binary64 where
  negative := negative
  rank := rankOfRatio (num * Nat.pow 2 e.toNat) (den * Nat.pow 2 (-e).toNat)

/-- Zero with a given sign. -/
def zero (negative : Bool) : Binary64 := ⟨negative, 0⟩

/-- Infinity with a given sign. -/
def infinity (negative : Bool) : Binary64 := ⟨negative, ⟨infinityRank, by decide⟩⟩

/-- The NaN without further information. -/
def nan : Binary64 := ⟨false, ⟨infinityRank + 0x8000000000000, by decide⟩⟩

/-! ### Arithmetic -/

/-- The number nearest to a natural number. -/
def ofNat (n : Nat) : Binary64 := ofRatio false n 1 0

/-- The product of two finite numbers. -/
def mul (x y : Binary64) : Binary64 :=
  ofRatio (x.negative != y.negative) (x.significand * y.significand) 1 (x.scale + y.scale)

/-- The quotient of two finite numbers, the second one not zero. -/
def div (x y : Binary64) : Binary64 :=
  ofRatio (x.negative != y.negative) x.significand y.significand (x.scale - y.scale)

instance : Mul Binary64 := ⟨mul⟩

instance : Div Binary64 := ⟨div⟩

/-- The opposite number. -/
def neg (x : Binary64) : Binary64 := ⟨!x.negative, x.rank⟩

instance : Neg Binary64 := ⟨neg⟩

/-- The number nearest to a power of ten. -/
def powerOfTen (k : Nat) : Binary64 := ofNat (Nat.pow 10 k)

end Binary64

end RecordFilter
