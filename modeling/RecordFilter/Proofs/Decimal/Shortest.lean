import Mathlib.Algebra.Order.Floor.Semifield
import RecordFilter.Decimal.Shortest
import RecordFilter.Proofs.Binary64.Rounding

/-!
# Shortest decimals round back

The decimal that the search finds is covered by its number (`Decimal.covers_shortest`), and its
digits are at most twenty times the significand (`Decimal.digits_shortest_le`), so they fit 64 bits.
Both follow from what one grid yields (`Decimal.onGrid?_spec`). A grid that misses has a step of at
least half a unit of the last place, so a grid with a finer step hits, and the search comes to one
(`Decimal.coarseGrid_spec`).
-/

namespace RecordFilter

open Binary64 (Covers)

namespace Decimal

variable {x : Binary64} {tie : Tie} {g : Int} {d : Decimal}

/-- The value of a decimal. -/
def value (d : Decimal) : ℚ := d.digits * 10 ^ d.exponent

/-! ### One grid -/

/-- The search compares quarters of the last place and steps of the grid in a common unit. -/
theorem exists_unit (e g : Int) : ∃ u : ℚ, 0 < u ∧
    ((Nat.pow 2 e.toNat * Nat.pow 10 (-g).toNat : Nat) : ℚ) = u * 2 ^ e ∧
    ((Nat.pow 2 (-e).toNat * Nat.pow 10 g.toNat : Nat) : ℚ) = u * 10 ^ g := by
  have htwo : (2 : ℚ) ^ e = _ := zpow_eq_div_pow 2 e
  have hten : (10 : ℚ) ^ g = _ := zpow_eq_div_pow 10 g
  have htwo' : (0 : ℚ) < (Nat.pow 2 (-e).toNat : Nat) := by exact_mod_cast Nat.two_pow_pos _
  have hten' : (0 : ℚ) < (Nat.pow 10 (-g).toNat : Nat) := by
    exact_mod_cast Nat.pow_pos (by decide : 0 < 10)
  refine ⟨(Nat.pow 2 (-e).toNat : Nat) * (Nat.pow 10 (-g).toNat : Nat), mul_pos htwo' hten', ?_, ?_⟩
  · rw [htwo, Nat.cast_mul]
    field_simp
  · rw [hten, Nat.cast_mul]
    field_simp

/-- The lower end of what a number covers, in quarters of its last place. -/
def lowQuarters (x : Binary64) : Nat :=
  if x.rank.val % 0x10000000000000 == 0 && decide (0x20000000000000 ≤ x.rank.val) then
    4 * x.significand - 1
  else 4 * x.significand - 2

theorem lowQuarters_mul (hx : x.significand ≠ 0) : (lowQuarters x : ℚ) * 2 ^ (x.scale - 2) =
    (x.significand - x.reachBelow) * 2 ^ x.scale := by
  have hone : 1 ≤ x.significand := Nat.one_le_iff_ne_zero.2 hx
  have hrank := x.rank_eq
  have hscale := x.le_scale
  have hlt := x.significand_lt
  have hge := x.le_significand
  have hnarrow : (x.rank.val % 0x10000000000000 == 0 && decide (0x20000000000000 ≤ x.rank.val)) =
      true ↔ x.significand = 0x10000000000000 ∧ x.scale ≠ -1074 := by
    simp only [Bool.and_eq_true, beq_iff_eq, decide_eq_true_eq]
    omega
  have hquarter : (2 : ℚ) ^ x.scale = 4 * 2 ^ (x.scale - 2) := by
    rw [zpow_sub₀ (by norm_num)]
    field_simp
    norm_num
  rw [lowQuarters, Binary64.reachBelow, hquarter]
  by_cases h : x.significand = 0x10000000000000 ∧ x.scale ≠ -1074
  · rw [if_pos (hnarrow.2 h), if_pos h, Nat.cast_sub (by omega)]
    push_cast
    ring
  · rw [if_neg (mt hnarrow.1 h), if_neg h, Nat.cast_sub (by omega)]
    push_cast
    ring

theorem highQuarters_mul (x : Binary64) : ((4 * x.significand + 2 : Nat) : ℚ) * 2 ^ (x.scale - 2) =
    (x.significand + 1 / 2) * 2 ^ x.scale := by
  rw [zpow_sub₀ (by norm_num)]
  push_cast
  norm_num
  ring

/-- The test of a point of a grid says whether the number covers it. -/
theorem reads_iff {u : ℚ} {a b : Nat} (hu : 0 < u) (ha : (a : ℚ) = u * 2 ^ (x.scale - 2))
    (hb : (b : ℚ) = u * 10 ^ g) (hx : x.significand ≠ 0) (n : Nat) :
    (if x.significand % 2 == 0 then
      decide (lowQuarters x * a ≤ n * b) && decide (n * b ≤ (4 * x.significand + 2) * a)
    else decide (lowQuarters x * a < n * b) && decide (n * b < (4 * x.significand + 2) * a)) =
      true ↔ x.Covers (n * 10 ^ g) := by
  have hpoint : ((n * b : Nat) : ℚ) = u * (n * 10 ^ g) := by rw [Nat.cast_mul, hb]; ring
  have hlow : ((lowQuarters x * a : Nat) : ℚ) =
      u * ((x.significand - x.reachBelow) * 2 ^ x.scale) := by
    rw [← lowQuarters_mul hx, Nat.cast_mul, ha]
    ring
  have hhigh : (((4 * x.significand + 2) * a : Nat) : ℚ) =
      u * ((x.significand + 1 / 2) * 2 ^ x.scale) := by
    rw [← highQuarters_mul, Nat.cast_mul, ha]
    ring
  have hle : lowQuarters x * a ≤ n * b ↔
      (x.significand - x.reachBelow) * 2 ^ x.scale ≤ n * 10 ^ g := by
    rw [← Nat.cast_le (α := ℚ), hpoint, hlow, mul_le_mul_iff_of_pos_left hu]
  have hle' : n * b ≤ (4 * x.significand + 2) * a ↔
      n * 10 ^ g ≤ (x.significand + 1 / 2 : ℚ) * 2 ^ x.scale := by
    rw [← Nat.cast_le (α := ℚ), hpoint, hhigh, mul_le_mul_iff_of_pos_left hu]
  have hlt : lowQuarters x * a < n * b ↔
      (x.significand - x.reachBelow) * 2 ^ x.scale < n * 10 ^ g := by
    rw [← Nat.cast_lt (α := ℚ), hpoint, hlow, mul_lt_mul_iff_of_pos_left hu]
  have hlt' : n * b < (4 * x.significand + 2) * a ↔
      n * 10 ^ g < (x.significand + 1 / 2 : ℚ) * 2 ^ x.scale := by
    rw [← Nat.cast_lt (α := ℚ), hpoint, hhigh, mul_lt_mul_iff_of_pos_left hu]
  by_cases heven : x.significand % 2 = 0
  · rw [if_pos (by simpa using heven), Bool.and_eq_true, decide_eq_true_iff, decide_eq_true_iff,
      hle, hle']
    exact ⟨fun h => ⟨h.1, h.2, fun hodd => by omega⟩, fun h => ⟨h.low_le, h.le_high⟩⟩
  · rw [if_neg (by simpa using heven), Bool.and_eq_true, decide_eq_true_iff, decide_eq_true_iff,
      hlt, hlt']
    exact ⟨fun h => ⟨h.1.le, h.2.le, fun _ => h⟩, fun h => h.strict (by omega)⟩

/-- **What a grid yields**: a neighbour of the number that it covers, or nothing if it covers
neither of the two. -/
theorem onGrid?_spec (hx : x.significand ≠ 0) (tie : Tie) (g : Int) : ∃ below : Nat,
    below * 10 ^ g ≤ x.magnitude ∧ x.magnitude < (below + 1 : Nat) * 10 ^ g ∧
    ((onGrid? x tie g = none ∧ ¬ x.Covers (below * 10 ^ g) ∧
        ¬ x.Covers ((below + 1 : Nat) * 10 ^ g)) ∨
      ∃ n : Nat, onGrid? x tie g = some ⟨n, g⟩ ∧ n ≤ below + 1 ∧ x.Covers (n * 10 ^ g)) := by
  obtain ⟨u, hu, ha, hb⟩ := exists_unit (x.scale - 2) g
  have hg : (0 : ℚ) < 10 ^ g := by positivity
  have hreads := reads_iff hu ha hb hx
  simp only [lowQuarters] at hreads
  simp only [onGrid?]
  generalize Nat.pow 2 (x.scale - 2).toNat * Nat.pow 10 (-g).toNat = a at ha hreads ⊢
  generalize Nat.pow 2 (-(x.scale - 2)).toNat * Nat.pow 10 g.toNat = b at hb hreads ⊢
  have hbpos : 0 < b := by
    have hpos : (0 : ℚ) < b := by rw [hb]; positivity
    exact_mod_cast hpos
  have hvalue : ((4 * x.significand * a : Nat) : ℚ) = u * x.magnitude := by
    rw [Nat.cast_mul, ha, Binary64.magnitude, zpow_sub₀ (by norm_num)]
    push_cast
    ring
  have hbelow : 4 * x.significand * a / b * b ≤ 4 * x.significand * a := Nat.div_mul_le_self _ _
  have habove : 4 * x.significand * a < (4 * x.significand * a / b + 1) * b := by
    have hmod := Nat.lt_div_mul_add (a := 4 * x.significand * a) hbpos
    rw [Nat.add_mul, Nat.one_mul]
    exact hmod
  generalize 4 * x.significand * a / b = below at hbelow habove ⊢
  refine ⟨below, ?_, ?_, ?_⟩
  · have hcast : ((below * b : Nat) : ℚ) ≤ (4 * x.significand * a : Nat) := by
      exact_mod_cast hbelow
    rw [hvalue, Nat.cast_mul, hb, mul_left_comm] at hcast
    exact (mul_le_mul_iff_of_pos_left hu).1 hcast
  · have hcast : ((4 * x.significand * a : Nat) : ℚ) < ((below + 1) * b : Nat) := by
      exact_mod_cast habove
    rw [hvalue, Nat.cast_mul, hb, mul_left_comm] at hcast
    exact (mul_lt_mul_iff_of_pos_left hu).1 hcast
  · split
    · rename_i h h'
      exact .inl ⟨rfl, fun hcovers => Bool.false_ne_true (h.symm.trans ((hreads _).2 hcovers)),
        fun hcovers => Bool.false_ne_true (h'.symm.trans ((hreads _).2 hcovers))⟩
    · rename_i h h'
      exact .inr ⟨_, rfl, Nat.le_succ _, (hreads _).1 h⟩
    · rename_i h h'
      exact .inr ⟨_, rfl, Nat.le_refl _, (hreads _).1 h'⟩
    · rename_i h h'
      have hchosen : ∀ n, n = below ∨ n = below + 1 → n ≤ below + 1 ∧ x.Covers (n * 10 ^ g) := by
        rintro n (rfl | rfl)
        · exact ⟨Nat.le_succ _, (hreads _).1 h⟩
        · exact ⟨Nat.le_refl _, (hreads _).1 h'⟩
      -- both neighbours are covered, and either of them may be nearer
      split
      · exact .inr ⟨_, rfl, hchosen _ (.inl rfl)⟩
      · exact .inr ⟨_, rfl, hchosen _ (.inr rfl)⟩
      · split
        · exact .inr ⟨_, rfl, hchosen _ (.inr rfl)⟩
        · refine .inr ⟨_, rfl, hchosen _ ?_⟩
          split <;> simp

/-- The decimal that a grid yields is covered. -/
theorem covers_of_onGrid? (hx : x.significand ≠ 0) (h : onGrid? x tie g = some d) :
    x.Covers d.value := by
  obtain ⟨below, -, -, ⟨hnone, -, -⟩ | ⟨n, hsome, -, hcovers⟩⟩ := onGrid?_spec hx tie g
  · rw [hnone] at h
    simp at h
  · rw [hsome] at h
    obtain rfl := Option.some.inj h
    exact hcovers

/-- A grid that misses has a step of at least half a unit of the last place. -/
theorem scale_le_of_onGrid?_eq_none (hx : x.significand ≠ 0) (h : onGrid? x tie g = none) :
    (2 : ℚ) ^ x.scale ≤ 2 * 10 ^ g := by
  obtain ⟨below, hbelow, habove, ⟨-, hmiss, hmiss'⟩ | ⟨n, hsome, -, -⟩⟩ := onGrid?_spec hx tie g
  · have hreach := x.reachBelow_pos
    have hpow : (0 : ℚ) < 2 ^ x.scale := by positivity
    -- the neighbours lie on either side of all that is covered
    have hle : below * 10 ^ g ≤ (x.significand - x.reachBelow) * 2 ^ x.scale := by
      by_contra hgt
      exact hmiss (.of_lt (not_le.1 hgt) (hbelow.trans_lt x.magnitude_lt))
    have hge : (x.significand + 1 / 2 : ℚ) * 2 ^ x.scale ≤ (below + 1 : Nat) * 10 ^ g := by
      by_contra hlt
      exact hmiss' (.of_lt (x.lt_magnitude.trans habove) (not_le.1 hlt))
    have hwidth : (x.significand + 1 / 2 : ℚ) * 2 ^ x.scale -
        (x.significand - x.reachBelow) * 2 ^ x.scale ≤ 10 ^ g := by
      push_cast at hge
      linarith
    have hhalf : 1 / 2 * (2 : ℚ) ^ x.scale ≤ (1 / 2 + x.reachBelow) * 2 ^ x.scale :=
      mul_le_mul_of_nonneg_right (by linarith) hpow.le
    linarith
  · rw [hsome] at h
    simp at h

/-! ### All grids -/

theorem covers_of_firstOnGrids? (hx : x.significand ≠ 0) {count : Nat}
    (h : firstOnGrids? x tie g count = some d) : x.Covers d.value := by
  induction count generalizing g with
  | zero => simp [firstOnGrids?] at h
  | succ count ih =>
    rw [firstOnGrids?] at h
    split at h
    · rename_i d' hd'
      obtain rfl := Option.some.inj h
      exact covers_of_onGrid? hx hd'
    · exact ih h

/-- Digits are few if the first grid has a step that is not much smaller than a unit of the last
place: the others come after a miss, and each of them is ten times finer than the one before. -/
theorem digits_le_of_firstOnGrids? (hx : x.significand ≠ 0) {count : Nat}
    (hg : (2 : ℚ) ^ x.scale ≤ 20 * 10 ^ g) (h : firstOnGrids? x tie g count = some d) :
    d.digits ≤ 20 * x.significand + 1 := by
  induction count generalizing g with
  | zero => simp [firstOnGrids?] at h
  | succ count ih =>
    have hstep : (0 : ℚ) < 10 ^ g := by positivity
    rw [firstOnGrids?] at h
    split at h
    · rename_i d' hd'
      obtain rfl := Option.some.inj h
      obtain ⟨below, hbelow, -, ⟨hnone, -, -⟩ | ⟨n, hsome, hn, -⟩⟩ := onGrid?_spec hx tie g
      · simp [hnone] at hd'
      · obtain rfl := Option.some.inj (hsome.symm.trans hd')
        have hmagnitude : x.magnitude ≤ (20 * x.significand : Nat) * 10 ^ g := by
          rw [Binary64.magnitude]
          calc (x.significand : ℚ) * 2 ^ x.scale ≤ x.significand * (20 * 10 ^ g) :=
                mul_le_mul_of_nonneg_left hg (Nat.cast_nonneg _)
            _ = (20 * x.significand : Nat) * 10 ^ g := by push_cast; ring
        have hle : (below : ℚ) ≤ (20 * x.significand : Nat) :=
          le_of_mul_le_mul_right (hbelow.trans hmagnitude) hstep
        have hle' : below ≤ 20 * x.significand := by exact_mod_cast hle
        exact hn.trans (by omega)
    · rename_i hnone
      refine ih ?_ h
      have hmiss := scale_le_of_onGrid?_eq_none hx hnone
      have hten : (10 : ℚ) ^ g = 10 * 10 ^ (g - 1) := by
        rw [← zpow_one_add₀ (by norm_num)]
        congr 1
        ring
      rw [hten] at hmiss
      linarith

/-- If all grids miss, then so does the last one. -/
theorem scale_le_of_firstOnGrids?_eq_none (hx : x.significand ≠ 0) {count : Nat}
    (h : firstOnGrids? x tie g (count + 1) = none) : (2 : ℚ) ^ x.scale ≤ 2 * 10 ^ (g - count) := by
  induction count generalizing g with
  | zero =>
    rw [firstOnGrids?] at h
    split at h
    · simp at h
    · rename_i hnone
      simpa using scale_le_of_onGrid?_eq_none hx hnone
  | succ count ih =>
    rw [firstOnGrids?] at h
    split at h
    · simp at h
    · have hlast := ih h
      rwa [Nat.cast_succ, show g - ((count : Int) + 1) = g - 1 - count by ring]

/-! ### The first grid -/

/-- A factor between one and two, taken a number of times, stays below as many factors of two. -/
theorem zpow_le_two_pow {r : ℚ} (hone : 1 ≤ r) (htwo : r ≤ 2) {k : Int} {count : Nat}
    (hk : k ≤ count) : r ^ k ≤ 2 ^ count :=
  calc r ^ k ≤ r ^ (count : Int) := zpow_le_zpow_right₀ hone hk
    _ = r ^ count := zpow_natCast r count
    _ ≤ 2 ^ count := pow_le_pow_left₀ (zero_le_one.trans hone) htwo count

/-- One power of two that is close to a power of ten tells how others compare: as long as they are
fewer than the factors in it, what they are off by is a factor of two in all of it. -/
theorem powers_le_of_close {n m : Nat} (hn : n ≠ 0) (hclose : Nat.pow 2 n ≤ Nat.pow 10 m)
    (hclose' : Nat.pow 10 m ≤ 2 * Nat.pow 2 n) {k g : Int} (hk : k ≤ n) (hk' : -k ≤ n)
    (hg : n * g ≤ m * k) (hg' : m * k ≤ n * (g + 1)) :
    (2 : ℚ) ^ k ≤ 10 ^ (g + 2) ∧ (10 : ℚ) ^ g ≤ 2 ^ (k + 1) := by
  have hpow : (0 : ℚ) < 2 ^ n := by positivity
  obtain ⟨r, hr⟩ : ∃ r : ℚ, 10 ^ m = r * 2 ^ n := ⟨10 ^ m / 2 ^ n, by field_simp⟩
  have hone : 1 ≤ r := by
    have hle : (2 : ℚ) ^ n ≤ 10 ^ m := by exact_mod_cast hclose
    exact (le_mul_iff_one_le_left hpow).1 (hr ▸ hle)
  have htwo : r ≤ 2 := by
    have hle : (10 : ℚ) ^ m ≤ 2 * 2 ^ n := by exact_mod_cast hclose'
    exact le_of_mul_le_mul_right (hr ▸ hle) hpow
  have hsplit : (10 : ℚ) ^ (m * k) = r ^ k * 2 ^ (n * k) := by
    rw [zpow_mul, zpow_natCast, hr, mul_zpow, zpow_mul, zpow_natCast]
  have hroot {a b : ℚ} (ha : 0 ≤ a) (hb : 0 ≤ b) (h : a ^ n ≤ b ^ n) : a ≤ b :=
    (pow_le_pow_iff_left₀ ha hb hn).1 h
  constructor
  · refine hroot (by positivity) (by positivity) ?_
    calc ((2 : ℚ) ^ k) ^ n = r ^ (-k) * 10 ^ (m * k) := by
          rw [hsplit, ← mul_assoc, ← zpow_add₀ (by linarith), neg_add_cancel, zpow_zero, one_mul,
            ← zpow_natCast, ← zpow_mul, mul_comm k]
      _ ≤ 2 ^ n * 10 ^ (n * (g + 1)) := by
          gcongr
          · exact zpow_le_two_pow hone htwo hk'
          · norm_num
      _ ≤ 10 ^ n * 10 ^ (n * (g + 1)) := by gcongr; norm_num
      _ = (10 ^ (g + 2)) ^ n := by
          rw [← zpow_natCast, ← zpow_natCast, ← zpow_mul, ← zpow_add₀ (by norm_num)]
          congr 1
          ring
  · refine hroot (by positivity) (by positivity) ?_
    calc ((10 : ℚ) ^ g) ^ n = 10 ^ (n * g) := by rw [← zpow_natCast, ← zpow_mul, mul_comm]
      _ ≤ 10 ^ (m * k) := zpow_le_zpow_right₀ (by norm_num) hg
      _ = r ^ k * 2 ^ (n * k) := hsplit
      _ ≤ 2 ^ n * 2 ^ (n * k) := by gcongr; exact zpow_le_two_pow hone htwo hk
      _ = (2 ^ (k + 1)) ^ n := by
          rw [← zpow_natCast, ← zpow_natCast, ← zpow_mul, ← zpow_add₀ (by norm_num)]
          congr 1
          ring

/-- **The estimate of a decimal logarithm** is at most one too small, and too great by nothing that
counts. -/
theorem powers_le {k : Int} (hlow : -1074 ≤ k) (hhigh : k ≤ 1023) :
    (2 : ℚ) ^ k ≤ 10 ^ (Int.fdiv (k * 30103) 100000 + 2) ∧
      (10 : ℚ) ^ Int.fdiv (k * 30103) 100000 ≤ 2 ^ (k + 1) := by
  -- 30103 / 100000 is just above the decimal logarithm of two
  have hclose : Nat.pow 2 100000 ≤ Nat.pow 10 30103 ∧
      Nat.pow 10 30103 ≤ 2 * Nat.pow 2 100000 := by decide +kernel
  rw [Int.fdiv_eq_ediv_of_nonneg _ (by decide)]
  exact powers_le_of_close (by decide) hclose.1 hclose.2 (by omega) (by omega) (by omega)
    (by omega)

/-- The search starts with a step above a unit of the last place, and ends with one below half of
it. -/
theorem coarseGrid_spec (hfinite : x.isFinite = true) (hx : x.significand ≠ 0) :
    (2 : ℚ) ^ x.scale ≤ 10 ^ coarseGrid x ∧ 2 * (10 : ℚ) ^ (coarseGrid x - 19) < 2 ^ x.scale := by
  have hscale := x.le_scale
  have hscale' := Binary64.scale_le hfinite
  have hlog : x.significand.log2 ≤ 52 :=
    Nat.lt_succ_iff.1 ((Nat.log2_lt hx).2 x.significand_lt)
  obtain ⟨hlow, hhigh⟩ := powers_le (k := x.significand.log2 + x.scale) (by omega) (by omega)
  constructor
  · exact (zpow_le_zpow_right₀ (by norm_num) (by omega)).trans hlow
  · have hlast : coarseGrid x - 19 =
        Int.fdiv (((x.significand.log2 : Int) + x.scale) * 30103) 100000 + (-17) := by
      rw [coarseGrid]
      ring
    have hdigits : (2 : ℚ) ^ ((x.significand.log2 : Int) + x.scale + 1) ≤ 2 ^ (53 + x.scale) :=
      zpow_le_zpow_right₀ (by norm_num) (by omega)
    have hpow : (0 : ℚ) < 2 ^ x.scale := by positivity
    rw [zpow_add₀ (by norm_num) 53] at hdigits
    rw [hlast, zpow_add₀ (by norm_num)]
    norm_num at hdigits ⊢
    linarith

/-! ### The result -/

theorem value_exact (x : Binary64) : (exact x).value = x.magnitude := by
  unfold exact
  split
  · rename_i hscale
    obtain ⟨n, hn⟩ := Int.eq_ofNat_of_zero_le hscale
    simp [value, Binary64.magnitude, hn]
  · rename_i hscale
    obtain ⟨n, hn⟩ := Int.eq_ofNat_of_zero_le (Int.neg_nonneg.2 (not_le.1 hscale).le)
    obtain hn' : x.scale = -n := by omega
    rw [value, Binary64.magnitude, hn', neg_neg, Int.toNat_natCast, zpow_neg, zpow_neg, zpow_natCast,
      zpow_natCast, show (10 : ℚ) = 5 * 2 by norm_num, mul_pow, Nat.pow_eq]
    push_cast
    field_simp

/-- **The shortest decimal of a number is covered by it.** -/
theorem covers_shortest (hx : x.isZero = false) (tie : Tie) : x.Covers (shortest x tie).value := by
  have hne := Binary64.significand_ne_zero hx
  rw [shortest, if_neg (by simp [hx])]
  cases h : firstOnGrids? x tie (coarseGrid x) 20 with
  | some d => exact covers_of_firstOnGrids? hne h
  | none =>
    rw [Option.getD_none, value_exact]
    exact x.covers_magnitude

/-- Only zero has a zero for its shortest decimal. -/
theorem exponent_shortest_of_digits (h : (shortest x tie).digits = 0) :
    (shortest x tie).exponent = 0 := by
  cases hzero : x.isZero with
  | true => simp [shortest, hzero]
  | false =>
    have hpos := (covers_shortest hzero tie).pos (Binary64.significand_ne_zero hzero)
    simp [value, h] at hpos

/-- **The shortest decimal of a number has few digits.** -/
theorem digits_shortest_le (hfinite : x.isFinite = true) (tie : Tie) :
    (shortest x tie).digits ≤ 20 * x.significand + 1 := by
  unfold shortest
  split
  · exact Nat.zero_le _
  · rename_i hzero
    have hx : x.significand ≠ 0 := by simpa [Binary64.isZero_iff] using hzero
    have hstep : (0 : ℚ) < 10 ^ coarseGrid x := by positivity
    obtain ⟨hfirst, hlast⟩ := coarseGrid_spec hfinite hx
    cases h : firstOnGrids? x tie (coarseGrid x) 20 with
    | some d => exact digits_le_of_firstOnGrids? hx (by linarith) h
    | none =>
      have hmiss := scale_le_of_firstOnGrids?_eq_none hx h
      norm_num at hmiss
      linarith

end Decimal

end RecordFilter
