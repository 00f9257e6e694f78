import RecordFilter.Decimal.Reading
import RecordFilter.Proofs.Decimal.Shortest

/-!
# Decimals are read as what covers them

Reading rounds correctly: a decimal is read as the number that covers its value
(`Decimal.nearest_of_covers`). The bounds beyond which a decimal is not computed are never in the
way, as all that finite numbers cover, zero apart, lies within them (`Decimal.size_of_covers`).
-/

namespace RecordFilter

open Binary64 (Covers)

namespace Decimal

variable {x : Binary64} {d : Decimal}

/-- The exponent of a power of ten above the value of a decimal and at most ten times as great. -/
def size (d : Decimal) : Int := d.exponent + (Nat.toDigits 10 d.digits).length

theorem value_lt (d : Decimal) : d.value < 10 ^ d.size := by
  have hlength : 0 < (Nat.toDigits 10 d.digits).length := List.length_pos_iff.2 Nat.toDigits_ne_nil
  have hlt : d.digits < 10 ^ (Nat.toDigits 10 d.digits).length :=
    (Nat.length_toDigits_le_iff (by decide) hlength).1 (Nat.le_refl _)
  have hcast : (d.digits : ℚ) < 10 ^ (Nat.toDigits 10 d.digits).length := by exact_mod_cast hlt
  rw [value, size, zpow_add₀ (by norm_num), mul_comm (10 ^ d.exponent), zpow_natCast]
  exact mul_lt_mul_of_pos_right hcast (by positivity)

theorem le_value (h : d.digits ≠ 0) : 10 ^ (d.size - 1) ≤ d.value := by
  have hpow : 10 ^ ((Nat.toDigits 10 d.digits).length - 1) ≤ d.digits := by
    obtain hone | hmore : (Nat.toDigits 10 d.digits).length - 1 = 0 ∨
        0 < (Nat.toDigits 10 d.digits).length - 1 := by omega
    · rw [hone]
      exact Nat.one_le_iff_ne_zero.2 h
    · rw [← Nat.not_lt, ← Nat.length_toDigits_le_iff (by decide) hmore]
      omega
  have hcast : (10 : ℚ) ^ ((Nat.toDigits 10 d.digits).length - 1) ≤ d.digits := by
    exact_mod_cast hpow
  have hlength : 0 < (Nat.toDigits 10 d.digits).length := List.length_pos_iff.2 Nat.toDigits_ne_nil
  have hsize : d.size - 1 =
      (((Nat.toDigits 10 d.digits).length - 1 : Nat) : Int) + d.exponent := by
    rw [size]
    omega
  rw [value, hsize, zpow_add₀ (by norm_num), zpow_natCast]
  exact mul_le_mul_of_nonneg_right hcast (by positivity)

theorem digits_ne_zero (h : 0 < d.value) : d.digits ≠ 0 := by
  intro hzero
  simp [value, hzero] at h

/-- Powers of two bases compare as natural numbers do, with negative exponents on the other side. -/
theorem zpow_le_zpow_of_mul_le {b b' : Nat} (hb : 0 < b) (hb' : 0 < b') {k k' : Int}
    (h : Nat.pow b k.toNat * Nat.pow b' (-k').toNat ≤ Nat.pow b' k'.toNat * Nat.pow b (-k).toNat) :
    (b : ℚ) ^ k ≤ (b' : ℚ) ^ k' := by
  have hpow : (0 : ℚ) < (Nat.pow b (-k).toNat : Nat) := by exact_mod_cast Nat.pow_pos hb
  have hpow' : (0 : ℚ) < (Nat.pow b' (-k').toNat : Nat) := by exact_mod_cast Nat.pow_pos hb'
  rw [zpow_eq_div_pow, zpow_eq_div_pow, div_le_div_iff₀ hpow hpow']
  exact_mod_cast h

/-- **What numbers cover is in range.** -/
theorem size_of_covers (hfinite : x.isFinite = true) (hx : x.significand ≠ 0)
    (h : x.Covers d.value) : -400 ≤ d.size ∧ d.size ≤ 400 := by
  have hlow := x.le_scale
  have hhigh := Binary64.scale_le hfinite
  constructor
  · by_contra hsmall
    have hone : (1 : ℚ) ≤ x.significand := by exact_mod_cast Nat.one_le_iff_ne_zero.2 hx
    have hreach := x.reachBelow_le
    have htiny : (10 : ℚ) ^ (-401 : Int) ≤ 2 ^ (-1075 : Int) :=
      @zpow_le_zpow_of_mul_le 10 2 (by decide) (by decide) _ _ (by decide +kernel)
    have hhalf : (2 : ℚ) ^ (-1075 : Int) = 1 / 2 * 2 ^ (-1074 : Int) := by
      rw [show (-1075 : Int) = -1 + -1074 by norm_num, zpow_add₀ (by norm_num)]
      norm_num
    refine absurd h.low_le (not_le.2 ?_)
    calc d.value < 10 ^ d.size := d.value_lt
      _ ≤ 10 ^ (-401 : Int) := zpow_le_zpow_right₀ (by norm_num) (by omega)
      _ ≤ 1 / 2 * 2 ^ (-1074 : Int) := hhalf ▸ htiny
      _ ≤ (x.significand - x.reachBelow) * 2 ^ x.scale :=
        mul_le_mul (by linarith) (zpow_le_zpow_right₀ (by norm_num) hlow) (by positivity)
          (by linarith)
  · by_contra hgreat
    have hsignificand : (x.significand + 1 / 2 : ℚ) ≤ 2 ^ (53 : Int) := by
      have hle : (x.significand : ℚ) ≤ 0x1fffffffffffff := by
        exact_mod_cast Nat.le_of_lt_succ x.significand_lt
      norm_num
      linarith
    have hhuge : (2 : ℚ) ^ (1024 : Int) ≤ 10 ^ (309 : Int) :=
      @zpow_le_zpow_of_mul_le 2 10 (by decide) (by decide) _ _ (by decide +kernel)
    have hrange : (2 : ℚ) ^ (1024 : Int) = 2 ^ (53 : Int) * 2 ^ (971 : Int) :=
      zpow_add₀ (by norm_num) 53 971
    refine absurd (le_value (digits_ne_zero (h.pos hx))) (not_le.2 ?_)
    calc d.value ≤ (x.significand + 1 / 2) * 2 ^ x.scale := h.le_high
      _ ≤ 2 ^ (53 : Int) * 2 ^ (971 : Int) :=
        mul_le_mul hsignificand (zpow_le_zpow_right₀ (by norm_num) hhigh) (by positivity)
          (by positivity)
      _ ≤ 10 ^ (309 : Int) := hrange ▸ hhuge
      _ < 10 ^ (d.size - 1) := zpow_lt_zpow_right₀ (by norm_num) (by omega)

/-- **A decimal is read as the number that covers it.** -/
theorem nearest_of_covers (hfinite : x.isFinite = true) (hx : x.isZero = false)
    (h : x.Covers d.value) : d.nearest x.negative = x := by
  have hne := Binary64.significand_ne_zero hx
  obtain ⟨hlow, hhigh⟩ := size_of_covers hfinite hne h
  have hdigits := digits_ne_zero (h.pos hne)
  have hvalue : ((d.digits * Nat.pow 10 d.exponent.toNat : Nat) : ℚ) /
      (Nat.pow 10 (-d.exponent).toNat : Nat) * 2 ^ (0 : Int) = d.value := by
    have hten : (10 : ℚ) ^ d.exponent = _ := zpow_eq_div_pow 10 d.exponent
    rw [value, hten, Nat.cast_mul, zpow_zero, mul_one, mul_div_assoc]
  have hrank : (Binary64.ofRatio x.negative (d.digits * Nat.pow 10 d.exponent.toNat)
      (Nat.pow 10 (-d.exponent).toNat) 0).rank = x.rank := by
    have hden : Nat.pow 10 (-d.exponent).toNat ≠ 0 := Nat.ne_of_gt (Nat.pow_pos (by decide))
    refine Binary64.rank_ofRatio_of_covers hfinite hne hden _ ?_
    rwa [hvalue]
  have hinner : ¬(d.digits = 0 ∨ d.size < -400) := by omega
  have hnear : d.nearest x.negative = Binary64.ofRatio x.negative
      (d.digits * Nat.pow 10 d.exponent.toNat) (Nat.pow 10 (-d.exponent).toNat) 0 :=
    (if_neg hinner).trans (if_neg (not_lt.2 hhigh))
  rw [hnear]
  exact congrArg (Binary64.mk x.negative) hrank

theorem nearest_of_digits_eq_zero (h : d.digits = 0) (negative : Bool) :
    d.nearest negative = .zero negative := if_pos (.inl h)

end Decimal

end RecordFilter
