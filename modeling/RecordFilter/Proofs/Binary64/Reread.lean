import RecordFilter.Proofs.Binary64.Range
import RecordFilter.Proofs.Decimal.Layout
import RecordFilter.Proofs.Decimal.Shortest

/-!
# Floats that are read back

The JSON text of a finite number is read as the number to which its digits are scaled
(`readNumber?_text`). That is a finite number (`Binary64.isFinite_reread`), but it may be another one:
the significand is rounded to 53 digits before it is scaled, and the power of ten is rounded as well.
Nothing is rounded twice if the significand has at most 53 binary digits and the power of ten is at
most the twenty-second. Then the number is read back, as it covers its shortest decimal
(`Binary64.reread_eq_self`).
-/

namespace RecordFilter

namespace Decimal

variable {x : Binary64}

/-- What is written of a decimal has its value. -/
theorem written_value (d : Decimal) : (d.written.1 : ℚ) * 10 ^ d.written.2 = d.value := by
  rw [written, value]
  split
  · rename_i h
    obtain ⟨n, hn⟩ := Int.eq_ofNat_of_zero_le h.2
    rw [hn, Int.toNat_natCast, zpow_natCast]
    push_cast
    field_simp
    ring
  · rfl

theorem digits_shortest_lt (hfinite : x.isFinite = true) (tie : Tie) :
    (shortest x tie).digits < 0x10000000000000000 := by
  have hle := digits_shortest_le hfinite tie
  have hlt := x.significand_lt
  omega

end Decimal

/-! ### Scaling -/

/-- **Scaling rounds once** if neither the significand nor the power of ten is rounded: the result is
the number that covers the exact one. -/
theorem Numeral.rank_scaled {x : Binary64} (hfinite : x.isFinite = true) (hx : x.significand ≠ 0)
    {significand : Nat} {exponent : Int} (hsignificand : significand < 0x20000000000000)
    (hexponent : exponent.natAbs ≤ 22) (h : x.Covers (significand * 10 ^ exponent)) :
    (scaled significand exponent).rank = x.rank := by
  have hexact := Binary64.magnitude_ofNat hsignificand
  have hpos := h.pos hx
  have hzero : (Binary64.ofNat significand).isZero = false := by
    rw [Bool.eq_false_iff]
    intro hzero
    have hnone : (Binary64.ofNat significand).significand = 0 := Binary64.isZero_iff.1 hzero
    rw [Binary64.magnitude, hnone, Nat.cast_zero, zero_mul] at hexact
    rw [← hexact, zero_mul] at hpos
    exact lt_irrefl _ hpos
  rw [scaled]
  simp only
  by_cases hsign : 0 ≤ exponent
  · obtain ⟨k, rfl⟩ := Int.eq_ofNat_of_zero_le hsign
    rw [if_pos hsign, if_neg (by simp [hzero]), if_pos (by omega)]
    refine Binary64.rank_mul_of_covers hfinite hx ?_
    rw [hexact, Binary64.magnitude_powerOfTen (by omega)]
    simpa using h
  · obtain ⟨k, hk⟩ := Int.eq_ofNat_of_zero_le (Int.neg_nonneg.2 (not_le.1 hsign).le)
    obtain rfl : exponent = -k := by omega
    have hsteps : ((-(k : Int)).natAbs - 1) / 308 = 0 := by omega
    rw [if_neg hsign, hsteps, sinkBy, if_neg (by simp [hzero]), Int.natAbs_neg, Int.natAbs_natCast,
      Nat.zero_mul, Nat.sub_zero]
    have hten := Binary64.magnitude_powerOfTen (k := k) (by omega)
    have hne : (Binary64.powerOfTen k).magnitude ≠ 0 := by
      rw [hten]
      positivity
    refine Binary64.rank_div_of_covers hfinite hx
      (Binary64.significand_ne_zero_of_magnitude hne) ?_
    rw [hexact, hten]
    rwa [zpow_neg, zpow_natCast, ← div_eq_mul_inv] at h

namespace Numeral

variable {significand : Nat} {exponent : Int}

theorem rank_sinkBy_le (steps : Nat) (x : Binary64) : (sinkBy steps x).rank ≤ x.rank := by
  induction steps generalizing x with
  | zero => exact le_rfl
  | succ steps ih =>
    rw [sinkBy]
    split
    · exact le_rfl
    · exact (ih _).trans
        (Binary64.rank_div_le (Binary64.one_le_magnitude_powerOfTen (Nat.le_refl 308)))

theorem isFinite_ofNat_significand (hsignificand : significand < 0x10000000000000000) :
    (Binary64.ofNat significand).isFinite = true :=
  Binary64.isFinite_ofNat (k := 20) (by decide) (by omega)

/-- Scaling by a negative power of ten stays finite, as it makes nothing greater. -/
theorem isFinite_scaled_of_neg (hsignificand : significand < 0x10000000000000000)
    (hexponent : exponent < 0) : (scaled significand exponent).isFinite = true := by
  refine Binary64.isFinite_of_rank_le (isFinite_ofNat_significand hsignificand) ?_
  have hsink := rank_sinkBy_le ((exponent.natAbs - 1) / 308) (Binary64.ofNat significand)
  have hpower : exponent.natAbs - (exponent.natAbs - 1) / 308 * 308 ≤ 308 := by omega
  rw [scaled]
  simp only
  rw [if_neg (not_le.2 hexponent)]
  split
  · exact hsink
  · exact (Binary64.rank_div_le (Binary64.one_le_magnitude_powerOfTen hpower)).trans hsink

/-- A power of ten in the range of the format is at most the 308th. -/
theorem le_of_pow_lt {k : Nat} (h : (10 : ℚ) ^ k < 2 ^ (1024 : Int)) : k ≤ 308 := by
  -- the exponent is kept as a variable, so that the power is not computed
  obtain ⟨n, hn⟩ : ∃ n : Nat, n = 1024 := ⟨_, rfl⟩
  have hnat : 10 ^ k < 2 ^ n := by
    rw [show (1024 : Int) = n by omega, zpow_natCast] at h
    exact_mod_cast h
  by_contra hgt
  have hbeyond : 2 ^ n < 10 ^ 309 := by
    rw [hn]
    decide +kernel
  have hnext : 10 ^ 309 ≤ 10 ^ k := pow_le_pow_right₀ (by decide) (by omega)
  exact absurd hnat (Nat.not_lt.2 (hbeyond.le.trans hnext))

section

variable {k : Nat} (hne : significand ≠ 0)
  (h : (significand : ℚ) * 10 ^ k ≤ (0x20000000000000 - 5 / 2) * 2 ^ (971 : Int))

include hne h

theorem exponent_le : k ≤ 308 := by
  have hone : (1 : ℚ) ≤ significand := by exact_mod_cast Nat.one_le_iff_ne_zero.2 hne
  have hrange : (2 : ℚ) ^ (1024 : Int) = 2 ^ (53 : Int) * 2 ^ (971 : Int) :=
    zpow_add₀ (by norm_num) 53 971
  refine le_of_pow_lt ?_
  calc (10 : ℚ) ^ k ≤ significand * 10 ^ k := le_mul_of_one_le_left (by positivity) hone
    _ ≤ (0x20000000000000 - 5 / 2) * 2 ^ (971 : Int) := h
    _ < 2 ^ (53 : Int) * 2 ^ (971 : Int) :=
      mul_lt_mul_of_pos_right (by norm_num) (by positivity)
    _ = 2 ^ (1024 : Int) := hrange.symm

/-- The significand, the power of ten and the product are each rounded by at most half a unit. -/
theorem isFinite_mul_powerOfTen (hsignificand : significand < 0x10000000000000000) :
    (Binary64.ofNat significand * Binary64.powerOfTen k).isFinite = true := by
  have hk := exponent_le hne h
  have hfinite := isFinite_ofNat_significand hsignificand
  have hunit : (0 : ℚ) < 2 ^ (971 : Int) := by positivity
  refine Binary64.isFinite_mul ?_
  generalize (2 : ℚ) ^ (971 : Int) = unit at h hunit
  calc (Binary64.ofNat significand).magnitude * (Binary64.powerOfTen k).magnitude
      ≤ significand * (1 + 1 / 2 ^ 53) * (10 ^ k * (1 + 1 / 2 ^ 53)) :=
        mul_le_mul (Binary64.magnitude_ofNat_le hne hfinite) (Binary64.magnitude_powerOfTen_le hk)
          (zero_le_one.trans (Binary64.one_le_magnitude_powerOfTen hk)) (by positivity)
    _ = significand * 10 ^ k * (1 + 1 / 2 ^ 53) ^ 2 := by ring
    _ ≤ (0x20000000000000 - 5 / 2) * unit * (1 + 1 / 2 ^ 53) ^ 2 :=
      mul_le_mul_of_nonneg_right h (by positivity)
    _ < (0x1fffffffffffff + 1 / 2) * unit := by
      rw [mul_right_comm]
      exact mul_lt_mul_of_pos_right (by norm_num) hunit

end

/-- **Scaling stays finite** two and a half units below the range. -/
theorem isFinite_scaled (hsignificand : significand < 0x10000000000000000)
    (h : (significand : ℚ) * 10 ^ exponent ≤ (0x20000000000000 - 5 / 2) * 2 ^ (971 : Int)) :
    (scaled significand exponent).isFinite = true := by
  rcases lt_or_ge exponent 0 with hneg | hnonneg
  · exact isFinite_scaled_of_neg hsignificand hneg
  · obtain ⟨k, rfl⟩ := Int.eq_ofNat_of_zero_le hnonneg
    rw [zpow_natCast] at h
    rw [scaled]
    simp only
    rw [if_pos hnonneg]
    split
    · exact isFinite_ofNat_significand hsignificand
    · rename_i hzero
      have hne : significand ≠ 0 := by
        rintro rfl
        exact hzero (by decide)
      have hk := exponent_le hne h
      rw [if_pos (by omega), Int.toNat_natCast]
      exact isFinite_mul_powerOfTen hne h hsignificand

end Numeral

namespace Binary64

variable {x : Binary64}

/-- The significand and the power of ten that the JSON text of a number shows. -/
def written (x : Binary64) : Nat × Int := (Decimal.shortest x .toEven).written

/-- The number as which the JSON text of a number is read. -/
def reread (x : Binary64) : Binary64 :=
  ⟨x.negative, (Numeral.scaled x.written.1 x.written.2).rank⟩

theorem reread_of_isZero (h : x.isZero = true) : x.reread = x := by
  obtain ⟨negative, rank⟩ := x
  obtain rfl : rank = 0 := Fin.ext (by simpa [isZero] using h)
  cases negative <;> decide +kernel

/-- A number covers what its text shows. -/
theorem covers_written (h : x.isZero = false) : x.Covers (x.written.1 * 10 ^ x.written.2) := by
  rw [written, Decimal.written_value]
  exact Decimal.covers_shortest h .toEven

/-- **A number is read back** if its text shows few digits and a small power of ten. -/
theorem reread_eq_self (hfinite : x.isFinite = true) (hsignificand : x.written.1 < 0x20000000000000)
    (hexponent : x.written.2.natAbs ≤ 22) : x.reread = x := by
  cases hzero : x.isZero with
  | true => exact reread_of_isZero hzero
  | false =>
    have hrank : (Numeral.scaled x.written.1 x.written.2).rank = x.rank :=
      Numeral.rank_scaled hfinite (significand_ne_zero hzero) hsignificand hexponent
        (covers_written hzero)
    rw [reread, hrank]

/-- The text `123456.789` shows the significand 123456789. -/
example : (ofBits 0x40fe240c9fbe76c9).written = (123456789, -3) := by decide +kernel

/-- Sixteen digits and more may be too many: `7205759403792796.0` is read as the next number. -/
example : (ofBits 0x433999999999999c).reread = ofBits 0x433999999999999d := by decide +kernel

/-- Below the two greatest numbers everything that is covered is two and a half units below the
range. -/
theorem high_le (h : x.rank.val + 2 < infinityRank) :
    (x.significand + 1 / 2 : ℚ) * 2 ^ x.scale ≤ (0x20000000000000 - 5 / 2) * 2 ^ (971 : Int) := by
  have hrank := x.rank_eq
  have hlow := x.le_scale
  have hscale : x.scale ≤ 971 := scale_le (decide_eq_true (by omega))
  rw [infinityRank] at h
  rcases hscale.eq_or_lt with heq | hlt
  · have hsignificand : (x.significand : ℚ) ≤ 0x1ffffffffffffd := by
      exact_mod_cast (by omega : x.significand ≤ 0x1ffffffffffffd)
    rw [heq]
    exact mul_le_mul_of_nonneg_right (by linarith) (by positivity)
  · have hsignificand : (x.significand : ℚ) ≤ 0x1fffffffffffff := by
      exact_mod_cast Nat.le_of_lt_succ x.significand_lt
    have hunit : (0 : ℚ) < 2 ^ (970 : Int) := by positivity
    have htwo : (2 : ℚ) ^ (971 : Int) = 2 * 2 ^ (970 : Int) := zpow_one_add₀ (by norm_num) 970
    have hpow : (2 : ℚ) ^ x.scale ≤ 2 ^ (970 : Int) := zpow_le_zpow_right₀ (by norm_num) (by omega)
    calc (x.significand + 1 / 2 : ℚ) * 2 ^ x.scale
        ≤ 0x20000000000000 * 2 ^ (970 : Int) :=
          mul_le_mul (by linarith) hpow (by positivity) (by norm_num)
      _ ≤ (0x20000000000000 - 5 / 2) * 2 ^ (971 : Int) := by
          rw [htwo, ← mul_assoc]
          exact mul_le_mul_of_nonneg_right (by norm_num) hunit.le

/-- **The text of a finite number is read as a finite one.** -/
theorem isFinite_reread (hfinite : x.isFinite = true) : x.reread.isFinite = true := by
  cases hzero : x.isZero with
  | true => rwa [reread_of_isZero hzero]
  | false =>
    by_cases hrank : x.rank.val + 2 < infinityRank
    · have hsignificand : x.written.1 < 0x10000000000000000 :=
        Decimal.written_lt (Decimal.digits_shortest_lt hfinite .toEven)
      exact Numeral.isFinite_scaled hsignificand ((covers_written hzero).le_high.trans (high_le hrank))
    · -- the two greatest numbers are read one by one
      have hlt : x.rank.val < infinityRank := by simpa [isFinite] using hfinite
      have htop : x.rank.val = infinityRank - 1 ∨ x.rank.val = infinityRank - 2 := by omega
      obtain ⟨negative, rank⟩ := x
      rcases htop with htop | htop
      · obtain rfl : rank = ⟨infinityRank - 1, by decide⟩ := Fin.ext htop
        cases negative <;> decide +kernel
      · obtain rfl : rank = ⟨infinityRank - 2, by decide⟩ := Fin.ext htop
        cases negative <;> decide +kernel

end Binary64

/-! ### Reading -/

/-- **The text of a finite number is read** as the number to which its digits are scaled. -/
theorem readNumber?_text {x : Binary64} (hfinite : x.isFinite = true) {rest : List Char}
    (hrest : Numeral.Ends rest) : readNumber? ((x.text .json).toList ++ rest) =
      some (.float x.reread (Binary64.isFinite_reread hfinite), (x.text .json).toList.length) := by
  have htext : (x.text .json).toList =
      ((Decimal.shortest x .toEven).numeral x.negative).chars := Decimal.toList_text _ _
  have hnumber : Number.ofBinary64? x.reread =
      some (.float x.reread (Binary64.isFinite_reread hfinite)) := dif_pos _
  have hvalue : ((Decimal.shortest x .toEven).numeral x.negative).value? =
      Number.ofBinary64? x.reread :=
    Decimal.value?_numeral Decimal.exponent_shortest_of_digits
      (Decimal.digits_shortest_lt hfinite .toEven) x.negative
  rw [htext, readNumber?, Numeral.scan?_chars (Decimal.isSpelled_numeral _ _) hrest]
  simp only
  rw [hvalue, hnumber, Option.map_some]

end RecordFilter
