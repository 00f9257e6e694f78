import RecordFilter.Binary64

/-!
# Shortest decimals

The decimal with the fewest digits that rounds to a given finite binary64 number, and of those
the one nearest to it. The reals that round to a number form an interval whose ends belong to it
exactly when the significand is even. The search goes from coarse decimal grids to fine ones and
tries the two neighbours of the number on each: if any point of a grid lies in the interval, one
of these two does.
-/

namespace RecordFilter

/-- The decimal `digits * 10 ^ exponent`. -/
structure Decimal where
  digits : Nat
  exponent : Int
deriving DecidableEq, Repr

namespace Decimal

/-- Which of two equally near decimals is taken. -/
inductive Tie where
  /-- The one whose last digit is even. -/
  | toEven
  /-- The greater one. -/
  | up
deriving DecidableEq, Repr

/-- The neighbour of a positive number on the grid of multiples of `10 ^ g` that rounds to the
number, the nearer one if both do. Everything is measured in units of a quarter of the number's
last place divided by the grid's step, which is `a / b`. -/
def onGrid? (x : Binary64) (tie : Tie) (g : Int) : Option Decimal :=
  let m := x.significand
  let e := x.scale - 2
  let a := Nat.pow 2 e.toNat * Nat.pow 10 (-g).toNat
  let b := Nat.pow 2 (-e).toNat * Nat.pow 10 g.toNat
  let narrowBelow := x.rank.val % 0x10000000000000 == 0 && 0x20000000000000 ≤ x.rank.val
  let low := (if narrowBelow then 4 * m - 1 else 4 * m - 2) * a
  let high := (4 * m + 2) * a
  let value := 4 * m * a
  let reads (d : Nat) : Bool :=
    if m % 2 == 0 then low ≤ d * b && d * b ≤ high else low < d * b && d * b < high
  let below := value / b
  let above := below + 1
  match reads below, reads above with
  | false, false => none
  | true, false => some ⟨below, g⟩
  | false, true => some ⟨above, g⟩
  | true, true =>
    match compare (2 * value) ((below + above) * b) with
    | .lt => some ⟨below, g⟩
    | .gt => some ⟨above, g⟩
    | .eq =>
      match tie with
      | .up => some ⟨above, g⟩
      | .toEven => some ⟨if below % 2 == 0 then below else above, g⟩

/-- The first hit on the grids `10 ^ g`, `10 ^ (g - 1)`, … of which `count` are tried. -/
def firstOnGrids? (x : Binary64) (tie : Tie) (g : Int) : Nat → Option Decimal
  | 0 => none
  | count + 1 =>
    match onGrid? x tie g with
    | some d => some d
    | none => firstOnGrids? x tie (g - 1) count

/-- The exact value of a finite number. -/
def exact (x : Binary64) : Decimal :=
  if 0 ≤ x.scale then ⟨x.significand * Nat.pow 2 x.scale.toNat, 0⟩
  else ⟨x.significand * Nat.pow 5 (-x.scale).toNat, x.scale⟩

/-- A decimal exponent above that of the leading digit of a positive number, by two at most:
the binary exponent times the logarithm of two, which 30103 / 100000 approximates. -/
def coarseGrid (x : Binary64) : Int :=
  Int.fdiv (((x.significand.log2 : Int) + x.scale) * 30103) 100000 + 2

/-- The magnitude of a finite number with the fewest digits that identify it. -/
def shortest (x : Binary64) (tie : Tie) : Decimal :=
  if x.isZero then ⟨0, 0⟩
  else (firstOnGrids? x tie (coarseGrid x) 20).getD (exact x)

end Decimal

end RecordFilter
