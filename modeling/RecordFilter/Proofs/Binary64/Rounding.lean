import Mathlib.Algebra.Order.Field.Power
import Mathlib.Tactic.FieldSimp
import Mathlib.Tactic.Linarith
import Mathlib.Tactic.NormNum
import Mathlib.Tactic.Positivity
import Mathlib.Tactic.Ring
import RecordFilter.Binary64

/-!
# Rounding to binary floating-point numbers

The values that round to a finite number are those that it covers: an interval around its magnitude
that reaches half a unit of its last place up and down, or a quarter of it down where the next
smaller number is nearer, with its ends if the significand is even (`Binary64.Covers`).
`Binary64.rankOfRatio_of_covers` is the one fact about rounding that everything else needs. As a
magnitude is covered by its number, arithmetic is exact where the exact result is a magnitude.
-/

namespace RecordFilter

/-- An integer power is a quotient of two natural ones. -/
theorem zpow_eq_div_pow (b : Nat) (q : Int) :
    (b : ℚ) ^ q = (Nat.pow b q.toNat : Nat) / (Nat.pow b (-q).toNat : Nat) := by
  rcases le_total 0 q with h | h
  · obtain ⟨n, rfl⟩ := Int.eq_ofNat_of_zero_le h
    simp
  · obtain ⟨n, hn⟩ := Int.eq_ofNat_of_zero_le (Int.neg_nonneg.2 h)
    obtain rfl : q = -n := by omega
    simp

namespace Binary64

variable {x : Binary64} {num den : Nat}

/-! ### Significands and scales -/

theorem significand_lt (x : Binary64) : x.significand < 0x20000000000000 := by
  simp only [significand]
  split <;> omega

theorem le_scale (x : Binary64) : -1074 ≤ x.scale := by
  unfold scale
  split <;> omega

theorem scale_le (hfinite : x.isFinite = true) : x.scale ≤ 971 := by
  have hlt : x.rank.val < infinityRank := by simpa [isFinite] using hfinite
  rw [infinityRank] at hlt
  unfold scale
  split <;> omega

/-- Above the least scale, significands have all 53 digits. -/
theorem le_significand (h : x.scale ≠ -1074) : 0x10000000000000 ≤ x.significand := by
  simp only [scale, significand] at h ⊢
  split at h <;> split <;> omega

/-- Scale and significand make up the rank. -/
theorem rank_eq (x : Binary64) :
    x.rank.val = (x.scale + 1074).toNat * 0x10000000000000 + x.significand := by
  simp only [scale, significand]
  split <;> omega

/-- A rank is made up in one way only. -/
theorem eq_of_rank_eq {n m : Nat} (h : x.rank.val = n * 0x10000000000000 + m)
    (hm : m < 0x20000000000000) (hn : n = 0 ∨ 0x10000000000000 ≤ m) :
    x.scale = n - 1074 ∧ x.significand = m := by
  simp only [scale, significand]
  split <;> omega

theorem isZero_iff : x.isZero = true ↔ x.significand = 0 := by
  have hrank := x.rank_eq
  have hscale := x.le_scale
  have hle := x.le_significand
  simp only [isZero, beq_iff_eq]
  omega

theorem significand_ne_zero (h : x.isZero = false) : x.significand ≠ 0 := by
  intro hnone
  simp [isZero_iff.2 hnone] at h

/-- The magnitude of a finite number. -/
def magnitude (x : Binary64) : ℚ := x.significand * 2 ^ x.scale

/-! ### What a number covers -/

/-- The part of a unit of the last place that is covered below a number: the next smaller one is
nearer where the scale changes. -/
def reachBelow (x : Binary64) : ℚ :=
  if x.significand = 0x10000000000000 ∧ x.scale ≠ -1074 then 1 / 4 else 1 / 2

/-- The values that round to a number, by their distance from it. -/
structure Covers (x : Binary64) (t : ℚ) : Prop where
  low_le : (x.significand - x.reachBelow) * 2 ^ x.scale ≤ t
  le_high : t ≤ (x.significand + 1 / 2) * 2 ^ x.scale
  /-- Halfway between two numbers it is the even one that covers. -/
  strict : x.significand % 2 = 1 →
    (x.significand - x.reachBelow) * 2 ^ x.scale < t ∧ t < (x.significand + 1 / 2) * 2 ^ x.scale

theorem reachBelow_le (x : Binary64) : x.reachBelow ≤ 1 / 2 := by
  unfold reachBelow
  split <;> norm_num

theorem reachBelow_pos (x : Binary64) : 0 < x.reachBelow := by
  unfold reachBelow
  split <;> norm_num

/-- Other numbers than zero cover positive values only. -/
theorem Covers.pos (hx : x.significand ≠ 0) {t : ℚ} (h : x.Covers t) : 0 < t := by
  have hone : (1 : ℚ) ≤ x.significand := by exact_mod_cast Nat.one_le_iff_ne_zero.2 hx
  have hreach := x.reachBelow_le
  have hlow : (0 : ℚ) < (x.significand - x.reachBelow) * 2 ^ x.scale :=
    mul_pos (by linarith) (by positivity)
  exact hlow.trans_le h.low_le

theorem Covers.of_lt {t : ℚ} (hlow : (x.significand - x.reachBelow) * 2 ^ x.scale < t)
    (hhigh : t < (x.significand + 1 / 2) * 2 ^ x.scale) : x.Covers t :=
  ⟨hlow.le, hhigh.le, fun _ => ⟨hlow, hhigh⟩⟩

theorem lt_magnitude (x : Binary64) :
    (x.significand - x.reachBelow) * 2 ^ x.scale < x.magnitude := by
  have hreach := x.reachBelow_pos
  exact mul_lt_mul_of_pos_right (by linarith) (by positivity)

theorem magnitude_lt (x : Binary64) : x.magnitude < (x.significand + 1 / 2) * 2 ^ x.scale :=
  mul_lt_mul_of_pos_right (by linarith) (by positivity)

theorem covers_magnitude (x : Binary64) : x.Covers x.magnitude := .of_lt x.lt_magnitude x.magnitude_lt

/-! ### Rounding a quotient -/

/-- A quotient is rounded to a number that is nearest, and to the even one of two. -/
theorem roundQuotient_eq {r : Nat} (hden : 0 < den) (hlow : (r : ℚ) - 1 / 2 ≤ num / den)
    (hhigh : (num : ℚ) / den ≤ r + 1 / 2)
    (hodd : r % 2 = 1 → (r : ℚ) - 1 / 2 < num / den ∧ (num : ℚ) / den < r + 1 / 2) :
    roundQuotient num den = r := by
  have hpos : (0 : ℚ) < den := by exact_mod_cast hden
  have hlow' : 2 * (r * den) ≤ 2 * num + den := by
    rw [le_div_iff₀ hpos] at hlow
    have hcast : 2 * ((r : ℚ) * den) ≤ 2 * num + den := by linarith
    exact_mod_cast hcast
  have hhigh' : 2 * num ≤ 2 * (r * den) + den := by
    rw [div_le_iff₀ hpos] at hhigh
    have hcast : 2 * (num : ℚ) ≤ 2 * (r * den) + den := by linarith
    exact_mod_cast hcast
  have hodd' : r % 2 = 1 → 2 * (r * den) < 2 * num + den ∧ 2 * num < 2 * (r * den) + den := by
    intro h
    obtain ⟨hl, hh⟩ := hodd h
    rw [lt_div_iff₀ hpos] at hl
    rw [div_lt_iff₀ hpos] at hh
    have hcast : 2 * ((r : ℚ) * den) < 2 * num + den := by linarith
    have hcast' : 2 * (num : ℚ) < 2 * (r * den) + den := by linarith
    exact ⟨by exact_mod_cast hcast, by exact_mod_cast hcast'⟩
  have hdiv := Nat.div_add_mod num den
  have hmod := Nat.mod_lt num hden
  rw [roundQuotient]
  generalize num / den = q at hdiv ⊢
  generalize num % den = m at hdiv hmod ⊢
  -- the nearest number is one of the two around the quotient
  have hle : r ≤ q + 1 := by
    by_contra hgt
    have hmul : (q + 2) * den ≤ r * den := Nat.mul_le_mul_right den (by omega)
    rw [Nat.add_mul, Nat.mul_comm q] at hmul
    omega
  have hge : q ≤ r := by
    by_contra hlt
    have hmul : (r + 1) * den ≤ q * den := Nat.mul_le_mul_right den (by omega)
    rw [Nat.add_mul, Nat.mul_comm q] at hmul
    omega
  have hcases : r = q ∨ r = q + 1 := by omega
  rcases hcases with rfl | rfl
  · rw [Nat.mul_comm] at hdiv
    split <;> rename_i hcompare
    · rfl
    · rw [Nat.compare_eq_gt] at hcompare
      omega
    · rw [Nat.compare_eq_eq] at hcompare
      omega
  · rw [Nat.add_mul, Nat.mul_comm q] at hlow' hodd'
    split <;> rename_i hcompare
    · rw [Nat.compare_eq_lt] at hcompare
      omega
    · rfl
    · rw [Nat.compare_eq_eq] at hcompare
      omega

/-! ### The scale of a quotient -/

/-- The quotient of two numbers has as many digits as their lengths tell, or one more. -/
theorem div_mem_log2 (hnum : num ≠ 0) (hden : den ≠ 0) :
    (2 : ℚ) ^ ((num.log2 : Int) - den.log2 - 1) < num / den ∧
      (num : ℚ) / den < 2 ^ ((num.log2 : Int) - den.log2 + 1) := by
  have hpos : (0 : ℚ) < den := by exact_mod_cast Nat.pos_of_ne_zero hden
  have hnumLow : (2 : ℚ) ^ (num.log2 : Int) ≤ num := by exact_mod_cast Nat.log2_self_le hnum
  have hnumHigh : (num : ℚ) < 2 ^ ((num.log2 : Int) + 1) := by
    exact_mod_cast Nat.lt_log2_self (n := num)
  have hdenLow : (2 : ℚ) ^ (den.log2 : Int) ≤ den := by exact_mod_cast Nat.log2_self_le hden
  have hdenHigh : (den : ℚ) < 2 ^ ((den.log2 : Int) + 1) := by
    exact_mod_cast Nat.lt_log2_self (n := den)
  have htwo : (2 : ℚ) ≠ 0 := by norm_num
  constructor
  · rw [lt_div_iff₀ hpos]
    calc (2 : ℚ) ^ ((num.log2 : Int) - den.log2 - 1) * den
        < 2 ^ ((num.log2 : Int) - den.log2 - 1) * 2 ^ ((den.log2 : Int) + 1) :=
          mul_lt_mul_of_pos_left hdenHigh (by positivity)
      _ = 2 ^ (num.log2 : Int) := by
          rw [← zpow_add₀ htwo]
          congr 1
          ring
      _ ≤ num := hnumLow
  · rw [div_lt_iff₀ hpos]
    calc (num : ℚ) < 2 ^ ((num.log2 : Int) + 1) := hnumHigh
      _ = 2 ^ ((num.log2 : Int) - den.log2 + 1) * 2 ^ (den.log2 : Int) := by
          rw [← zpow_add₀ htwo]
          congr 1
          ring
      _ ≤ 2 ^ ((num.log2 : Int) - den.log2 + 1) * den :=
          mul_le_mul_of_nonneg_left hdenLow (by positivity)

/-- At its scale a quotient is below 2⁵³, and at least 2⁵² if the format has a smaller scale. -/
theorem scaleOfRatio_spec (hnum : num ≠ 0) (hden : den ≠ 0) :
    -1074 ≤ scaleOfRatio num den ∧ (num : ℚ) / den < 2 ^ (scaleOfRatio num den + 53) ∧
      (scaleOfRatio num den ≠ -1074 → (2 : ℚ) ^ (scaleOfRatio num den + 52) ≤ num / den) := by
  obtain ⟨hlow, hhigh⟩ := div_mem_log2 hnum hden
  have hpos : (0 : ℚ) < den := by exact_mod_cast Nat.pos_of_ne_zero hden
  rw [scaleOfRatio]
  generalize (num.log2 : Int) - den.log2 = e at hlow hhigh ⊢
  have hfewer : num * Nat.pow 2 (-e).toNat < den * Nat.pow 2 e.toNat ↔
      (num : ℚ) / den < 2 ^ e := by
    have htwo : (2 : ℚ) ^ e = _ := zpow_eq_div_pow 2 e
    have hpow : (0 : ℚ) < (Nat.pow 2 (-e).toNat : Nat) := by exact_mod_cast Nat.two_pow_pos _
    rw [htwo, div_lt_div_iff₀ hpos hpow, mul_comm ((Nat.pow 2 e.toNat : Nat) : ℚ)]
    exact_mod_cast Iff.rfl
  have hmono {a b : Int} (hab : a ≤ b) : (2 : ℚ) ^ a ≤ 2 ^ b := zpow_le_zpow_right₀ (by norm_num) hab
  by_cases hdigit : (num : ℚ) / den < 2 ^ e
  · rw [if_pos (decide_eq_true (hfewer.2 hdigit))]
    refine ⟨le_max_left _ _, hdigit.trans_le (hmono (by omega)), fun hne => ?_⟩
    exact (hmono (by omega)).trans hlow.le
  · rw [if_neg (by simpa using mt hfewer.1 hdigit)]
    refine ⟨le_max_left _ _, hhigh.trans_le (hmono (by omega)), fun hne => ?_⟩
    exact (hmono (by omega)).trans (not_lt.1 hdigit)

/-! ### The nearest rank -/

theorem rankOfRatio_val (hnum : num ≠ 0) : (rankOfRatio num den).val =
    min ((scaleOfRatio num den + 1074).toNat * 0x10000000000000 +
      roundQuotient (num * Nat.pow 2 (-scaleOfRatio num den).toNat)
        (den * Nat.pow 2 (scaleOfRatio num den).toNat)) infinityRank := by
  simp [rankOfRatio, hnum]

/-- What is rounded at a scale is the quotient in units of that scale. -/
theorem div_scaled (num den : Nat) (q : Int) : ((num * Nat.pow 2 (-q).toNat : Nat) : ℚ) /
    (den * Nat.pow 2 q.toNat : Nat) = num / den / 2 ^ q := by
  have htwo : (2 : ℚ) ^ q = _ := zpow_eq_div_pow 2 q
  rw [htwo, Nat.cast_mul, Nat.cast_mul, div_div_div_eq]

/-- At a scale a quotient is rounded to a significand. -/
theorem roundQuotient_scaled {q : Int} {r : Nat} (hden : den ≠ 0)
    (hlow : ((r : ℚ) - 1 / 2) * 2 ^ q ≤ num / den)
    (hhigh : (num : ℚ) / den ≤ (r + 1 / 2) * 2 ^ q)
    (hodd : r % 2 = 1 →
      ((r : ℚ) - 1 / 2) * 2 ^ q < num / den ∧ (num : ℚ) / den < (r + 1 / 2) * 2 ^ q) :
    roundQuotient (num * Nat.pow 2 (-q).toNat) (den * Nat.pow 2 q.toNat) = r := by
  have hpow : (0 : ℚ) < 2 ^ q := by positivity
  refine roundQuotient_eq (Nat.mul_pos (Nat.pos_of_ne_zero hden) (Nat.two_pow_pos _)) ?_ ?_ ?_
  · rwa [div_scaled, le_div_iff₀ hpow]
  · rwa [div_scaled, div_le_iff₀ hpow]
  · intro h
    rw [div_scaled, lt_div_iff₀ hpow, div_lt_iff₀ hpow]
    exact hodd h

/-- A quotient that is at most half a unit above a number has no greater scale than the number. -/
theorem scaleOfRatio_le_scale (hnum : num ≠ 0) (hden : den ≠ 0)
    (h : (num : ℚ) / den ≤ (x.significand + 1 / 2) * 2 ^ x.scale) :
    scaleOfRatio num den ≤ x.scale := by
  obtain ⟨hleast, -, hge⟩ := scaleOfRatio_spec hnum hden
  generalize scaleOfRatio num den = q at hleast hge ⊢
  by_contra hgt
  have hscale := x.le_scale
  have hsignificand : (x.significand : ℚ) + 1 ≤ 0x20000000000000 := by
    exact_mod_cast x.significand_lt
  have hless : (2 : ℚ) ^ (q + 52) < 2 ^ (x.scale + 53) :=
    calc (2 : ℚ) ^ (q + 52) ≤ num / den := hge (by omega)
      _ ≤ (x.significand + 1 / 2) * 2 ^ x.scale := h
      _ < 2 ^ (53 : Int) * 2 ^ x.scale :=
        mul_lt_mul_of_pos_right (by norm_num; linarith) (by positivity)
      _ = 2 ^ (x.scale + 53) := by rw [zpow_add₀ (by norm_num), mul_comm]
  have hlog : q + 52 < x.scale + 53 := (zpow_lt_zpow_iff_right₀ (by norm_num)).1 hless
  omega

section

variable (hnum : num ≠ 0) (hden : den ≠ 0) (h : x.Covers (num / den))

include hnum hden h

/-- A quotient that a number covers has the scale of the number or the next smaller one. -/
theorem scale_le_scaleOfRatio : x.scale ≤ scaleOfRatio num den + 1 := by
  obtain ⟨hleast, hlt, -⟩ := scaleOfRatio_spec hnum hden
  generalize scaleOfRatio num den = q at hleast hlt ⊢
  by_cases hscale : x.scale = -1074
  · omega
  · have hreach := x.reachBelow_le
    have hsignificand : (0x10000000000000 : ℚ) ≤ x.significand := by
      exact_mod_cast x.le_significand hscale
    have hless : (2 : ℚ) ^ (x.scale + 51) < 2 ^ (q + 53) :=
      calc (2 : ℚ) ^ (x.scale + 51) = 2 ^ (51 : Int) * 2 ^ x.scale := by
            rw [zpow_add₀ (by norm_num), mul_comm]
        _ ≤ (x.significand - x.reachBelow) * 2 ^ x.scale :=
          mul_le_mul_of_nonneg_right (by norm_num; linarith) (by positivity)
        _ ≤ num / den := h.low_le
        _ < 2 ^ (q + 53) := hlt
    have hlog : x.scale + 51 < q + 53 := (zpow_lt_zpow_iff_right₀ (by norm_num)).1 hless
    omega

/-- The scale of a covered quotient is smaller only below a number that is a power of two. -/
theorem significand_eq_of_scaleOfRatio_lt (hsmaller : scaleOfRatio num den < x.scale) :
    x.significand = 0x10000000000000 ∧ (num : ℚ) / den < 0x10000000000000 * 2 ^ x.scale := by
  obtain ⟨hleast, hlt, -⟩ := scaleOfRatio_spec hnum hden
  have hscale := scale_le_scaleOfRatio hnum hden h
  have hpow : (0 : ℚ) < 2 ^ x.scale := by positivity
  have hquotient : (num : ℚ) / den < 0x10000000000000 * 2 ^ x.scale := by
    rw [show scaleOfRatio num den + 53 = 52 + x.scale by omega, zpow_add₀ (by norm_num)] at hlt
    exact hlt.trans_eq (by norm_num)
  refine ⟨?_, hquotient⟩
  have hbig := x.le_significand (by omega)
  by_contra hne
  -- from the next significand on, everything that is covered has the scale of the number
  have hnext : (0x10000000000000 : ℚ) + 1 ≤ x.significand := by
    exact_mod_cast (by omega : 0x10000000000000 + 1 ≤ x.significand)
  have hreach := x.reachBelow_le
  have hlow : 0x10000000000000 * 2 ^ x.scale ≤ (num : ℚ) / den :=
    (mul_le_mul_of_nonneg_right (by linarith) hpow.le).trans h.low_le
  linarith

end

/-- **What a number covers rounds to it.** -/
theorem rankOfRatio_of_covers (hfinite : x.isFinite = true) (hx : x.significand ≠ 0)
    (hden : den ≠ 0) (h : x.Covers (num / den)) : rankOfRatio num den = x.rank := by
  have hrank := x.rank_eq
  have hlt : x.rank.val < infinityRank := by simpa [isFinite] using hfinite
  have hpow : (0 : ℚ) < 2 ^ x.scale := by positivity
  have hreach := x.reachBelow_le
  have hnum : num ≠ 0 := by
    rintro rfl
    have hpos := h.pos hx
    simp at hpos
  have hlow : ((x.significand : ℚ) - 1 / 2) * 2 ^ x.scale ≤
      (x.significand - x.reachBelow) * 2 ^ x.scale :=
    mul_le_mul_of_nonneg_right (by linarith) hpow.le
  refine Fin.ext ?_
  rw [rankOfRatio_val hnum]
  rcases (scaleOfRatio_le_scale hnum hden h.le_high).eq_or_lt with hscale | hsmaller
  · have hround : roundQuotient (num * Nat.pow 2 (-x.scale).toNat)
        (den * Nat.pow 2 x.scale.toNat) = x.significand :=
      roundQuotient_scaled hden (hlow.trans h.low_le) h.le_high fun hodd =>
        ⟨hlow.trans_lt (h.strict hodd).1, (h.strict hodd).2⟩
    rw [hscale, hround]
    omega
  · -- half a unit at the smaller scale is a quarter of one at the scale of the number
    obtain ⟨hsignificand, hless⟩ := significand_eq_of_scaleOfRatio_lt hnum hden h hsmaller
    have hge := scale_le_scaleOfRatio hnum hden h
    have hleast := (scaleOfRatio_spec hnum hden).1
    have hscale : scaleOfRatio num den = x.scale - 1 := by omega
    have hhalf : (2 : ℚ) ^ x.scale = 2 * 2 ^ (x.scale - 1) := by
      rw [← zpow_one_add₀ (by norm_num)]
      congr 1
      ring
    have hquarter : x.reachBelow = 1 / 4 := if_pos ⟨hsignificand, by omega⟩
    have hround : roundQuotient (num * Nat.pow 2 (-(x.scale - 1)).toNat)
        (den * Nat.pow 2 (x.scale - 1).toNat) = 0x20000000000000 := by
      have hle := h.low_le
      have hpow' : (0 : ℚ) < 2 ^ (x.scale - 1) := by positivity
      rw [hquarter, hsignificand, hhalf] at hle
      rw [hhalf] at hless
      refine roundQuotient_scaled hden ?_ ?_ (fun hodd => absurd hodd (by decide))
      · push_cast at hle ⊢
        linarith
      · push_cast at hless ⊢
        linarith
    rw [hscale, hround]
    omega

/-- A quotient is shifted by an integer power of two. -/
theorem div_shifted (num den : Nat) (e : Int) : ((num * Nat.pow 2 e.toNat : Nat) : ℚ) /
    (den * Nat.pow 2 (-e).toNat : Nat) = num / den * 2 ^ e := by
  have htwo : (2 : ℚ) ^ e = _ := zpow_eq_div_pow 2 e
  rw [Nat.cast_mul, Nat.cast_mul, ← div_mul_div_comm, ← htwo]

theorem rank_ofRatio_of_covers (hfinite : x.isFinite = true) (hx : x.significand ≠ 0)
    (hden : den ≠ 0) (negative : Bool) {e : Int} (h : x.Covers (num / den * 2 ^ e)) :
    (ofRatio negative num den e).rank = x.rank := by
  refine rankOfRatio_of_covers hfinite hx
    (Nat.mul_ne_zero hden (Nat.ne_of_gt (Nat.two_pow_pos _))) ?_
  rwa [div_shifted]

/-! ### Exact arithmetic -/

theorem magnitude_eq_of_rank_eq {y : Binary64} (h : x.rank = y.rank) :
    x.magnitude = y.magnitude := by
  simp [magnitude, significand, scale, h]

/-- Significands of at most 53 digits have a magnitude at every scale of the format. -/
theorem exists_magnitude_eq {m : Nat} {e : Int} (hm : m < 0x20000000000000) (hlow : -1074 ≤ e)
    (hhigh : e ≤ 971) : ∃ x : Binary64, x.isFinite = true ∧ x.magnitude = m * 2 ^ e := by
  rcases Nat.eq_zero_or_pos m with rfl | hpos
  · exact ⟨zero false, rfl, by simp [magnitude, significand, zero]⟩
  · -- the scale goes down until there are 53 digits, or no further
    have hlog : m.log2 ≤ 52 := Nat.lt_succ_iff.1 ((Nat.log2_lt hpos.ne').2 hm)
    let k : Nat := min (52 - m.log2) (e + 1074).toNat
    let n : Nat := (e + 1074).toNat - k
    have hk : k ≤ 52 - m.log2 := min_le_left _ _
    have hsmall : m * 2 ^ k < 0x20000000000000 :=
      calc m * 2 ^ k < 2 ^ (m.log2 + 1) * 2 ^ k :=
            Nat.mul_lt_mul_of_pos_right Nat.lt_log2_self (Nat.two_pow_pos k)
        _ = 2 ^ (m.log2 + 1 + k) := (Nat.pow_add _ _ _).symm
        _ ≤ 2 ^ 53 := Nat.pow_le_pow_right (by decide) (by omega)
    have hnormal : n = 0 ∨ 0x10000000000000 ≤ m * 2 ^ k := by
      by_cases hn : n = 0
      · exact .inl hn
      · have hk' : k = 52 - m.log2 := by omega
        refine .inr ?_
        calc 0x10000000000000 = 2 ^ (m.log2 + k) := by rw [hk', Nat.add_sub_of_le hlog]
          _ = 2 ^ m.log2 * 2 ^ k := Nat.pow_add _ _ _
          _ ≤ m * 2 ^ k := Nat.mul_le_mul_right _ (Nat.log2_self_le hpos.ne')
    have hrank : n * 0x10000000000000 + m * 2 ^ k < infinityRank := by
      rw [infinityRank]
      omega
    let x : Binary64 := ⟨false, ⟨n * 0x10000000000000 + m * 2 ^ k, hrank.trans (by decide)⟩⟩
    obtain ⟨hscale, hsignificand⟩ := eq_of_rank_eq (x := x) rfl hsmall hnormal
    refine ⟨x, decide_eq_true hrank, ?_⟩
    have he : e = k + (n - 1074) := by omega
    rw [magnitude, hscale, hsignificand, he, zpow_add₀ (by norm_num), zpow_natCast]
    push_cast
    ring

theorem significand_ne_zero_of_magnitude (h : x.magnitude ≠ 0) : x.significand ≠ 0 := by
  intro hzero
  simp [magnitude, hzero] at h

/-- A natural number with at most 53 digits in front of its final zeros is a magnitude. -/
theorem magnitude_ofNat_mul_pow {m k : Nat} (hm : m < 0x20000000000000) (hk : k ≤ 971) :
    (ofNat (m * 2 ^ k)).magnitude = (m * 2 ^ k : Nat) := by
  rcases Nat.eq_zero_or_pos m with rfl | hpos
  · simp [ofNat, ofRatio, rankOfRatio, magnitude, significand]
  · obtain ⟨x, hfinite, hx⟩ := exists_magnitude_eq (e := k) hm (by omega) (by omega)
    have hvalue : ((m * 2 ^ k : Nat) : ℚ) / (1 : Nat) * 2 ^ (0 : Int) = x.magnitude := by
      rw [hx]
      simp
    have hne : x.magnitude ≠ 0 := by
      rw [hx]
      positivity
    have hrank : (ofNat (m * 2 ^ k)).rank = x.rank :=
      rank_ofRatio_of_covers hfinite (significand_ne_zero_of_magnitude hne) one_ne_zero false
        (hvalue ▸ x.covers_magnitude)
    rw [magnitude_eq_of_rank_eq hrank, hx]
    simp

theorem magnitude_ofNat {n : Nat} (hn : n < 0x20000000000000) : (ofNat n).magnitude = n := by
  have h := magnitude_ofNat_mul_pow (k := 0) hn (Nat.zero_le _)
  rwa [Nat.pow_zero, Nat.mul_one] at h

/-- The powers of ten up to 10²² are magnitudes. -/
theorem magnitude_powerOfTen {k : Nat} (hk : k ≤ 22) : (powerOfTen k).magnitude = 10 ^ k := by
  have hfive : 5 ^ k < 0x20000000000000 :=
    (Nat.pow_le_pow_right (by decide) hk).trans_lt (by decide : 5 ^ 22 < 0x20000000000000)
  have hten : Nat.pow 10 k = 5 ^ k * 2 ^ k := by rw [← Nat.mul_pow]; rfl
  rw [powerOfTen, hten, magnitude_ofNat_mul_pow hfive (by omega), ← hten]
  simp

section

variable {y z : Binary64}

theorem mul_magnitude (y z : Binary64) : y.magnitude * z.magnitude =
    (y.significand * z.significand : Nat) / (1 : Nat) * 2 ^ (y.scale + z.scale) := by
  rw [magnitude, magnitude, zpow_add₀ (by norm_num)]
  push_cast
  ring

theorem div_magnitude (y z : Binary64) : y.magnitude / z.magnitude =
    y.significand / z.significand * 2 ^ (y.scale - z.scale) := by
  rw [magnitude, magnitude, zpow_sub₀ (by norm_num), div_mul_div_comm]

/-- A product is the number that covers the exact one. -/
theorem rank_mul_of_covers (hfinite : x.isFinite = true) (hx : x.significand ≠ 0)
    (h : x.Covers (y.magnitude * z.magnitude)) : (y * z).rank = x.rank := by
  rw [mul_magnitude] at h
  exact rank_ofRatio_of_covers hfinite hx one_ne_zero _ h

/-- A quotient is the number that covers the exact one. -/
theorem rank_div_of_covers (hfinite : x.isFinite = true) (hx : x.significand ≠ 0)
    (hz : z.significand ≠ 0) (h : x.Covers (y.magnitude / z.magnitude)) :
    (y / z).rank = x.rank := by
  rw [div_magnitude] at h
  exact rank_ofRatio_of_covers hfinite hx hz _ h

end

end Binary64

end RecordFilter
