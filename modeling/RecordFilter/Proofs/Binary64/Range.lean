import RecordFilter.Proofs.Binary64.Rounding

/-!
# The range of rounding

What is less than half a unit of the last place above a number rounds to no greater one
(`Binary64.rankOfRatio_le`). So division by at least one makes nothing greater, and what stays below
the greatest finite number is rounded to a finite one. Rounding a natural number adds no more than
its 2⁵³th part (`Binary64.magnitude_ofNat_le`).
-/

namespace RecordFilter.Binary64

variable {x y z : Binary64} {num den : Nat}

/-! ### Rounding up -/

theorem roundQuotient_le {r : Nat} (hden : 0 < den) (h : (num : ℚ) / den < r + 1 / 2) :
    roundQuotient num den ≤ r := by
  have hpos : (0 : ℚ) < den := by exact_mod_cast hden
  have hless : 2 * num < 2 * (r * den) + den := by
    rw [div_lt_iff₀ hpos] at h
    have hcast : 2 * (num : ℚ) < 2 * (r * den) + den := by linarith
    exact_mod_cast hcast
  have hdiv := Nat.div_add_mod num den
  rw [roundQuotient]
  generalize num / den = q at hdiv ⊢
  generalize num % den = m at hdiv ⊢
  rw [Nat.mul_comm] at hdiv
  have hq : q ≤ r := by
    by_contra hgt
    have hmul : (r + 1) * den ≤ q * den := Nat.mul_le_mul_right den (by omega)
    rw [Nat.add_mul] at hmul
    omega
  rcases hq.eq_or_lt with rfl | hlt
  · -- the quotient is less than half a unit above
    rw [Nat.compare_eq_lt.2 (by omega)]
  · split <;> omega

theorem div_le_roundQuotient (num den : Nat) : num / den ≤ roundQuotient num den := by
  rw [roundQuotient]
  split <;> omega

/-- Rounding adds at most one half. -/
theorem roundQuotient_le_add_half (hden : 0 < den) :
    (roundQuotient num den : ℚ) ≤ num / den + 1 / 2 := by
  have hpos : (0 : ℚ) < den := by exact_mod_cast hden
  have hnat : 2 * (roundQuotient num den * den) ≤ 2 * num + den := by
    have hdiv := Nat.div_add_mod num den
    rw [roundQuotient]
    generalize num / den = q at hdiv ⊢
    generalize num % den = m at hdiv ⊢
    rw [Nat.mul_comm] at hdiv
    split <;> rename_i hcompare
    · omega
    · rw [Nat.compare_eq_gt] at hcompare
      rw [Nat.add_mul]
      omega
    · rw [Nat.compare_eq_eq] at hcompare
      have hmod : q % 2 * den ≤ 1 * den := Nat.mul_le_mul_right den (by omega)
      rw [Nat.add_mul]
      omega
  have hcast : 2 * ((roundQuotient num den : ℚ) * den) ≤ 2 * num + den := by exact_mod_cast hnat
  rw [← sub_le_iff_le_add, le_div_iff₀ hpos]
  linarith

theorem roundQuotient_scaled_le {q : Int} {r : Nat} (hden : den ≠ 0)
    (h : (num : ℚ) / den < (r + 1 / 2) * 2 ^ q) :
    roundQuotient (num * Nat.pow 2 (-q).toNat) (den * Nat.pow 2 q.toNat) ≤ r := by
  refine roundQuotient_le (Nat.mul_pos (Nat.pos_of_ne_zero hden) (Nat.two_pow_pos _)) ?_
  rwa [div_scaled, div_lt_iff₀ (by positivity)]

/-- Below 2⁵³ units of a scale a quotient is rounded to at most as many. -/
theorem roundQuotient_scaled_le_of_lt {q : Int} (hden : den ≠ 0)
    (h : (num : ℚ) / den < 2 ^ (q + 53)) :
    roundQuotient (num * Nat.pow 2 (-q).toNat) (den * Nat.pow 2 q.toNat) ≤ 0x20000000000000 := by
  refine roundQuotient_scaled_le hden ?_
  rw [zpow_add₀ (by norm_num), mul_comm] at h
  refine h.trans_le (mul_le_mul_of_nonneg_right ?_ (by positivity))
  norm_num

/-- From 2⁵² units of a scale on a quotient is rounded to at least as many. -/
theorem le_roundQuotient_scaled {q : Int} (hden : den ≠ 0)
    (h : (2 : ℚ) ^ (q + 52) ≤ num / den) :
    0x10000000000000 ≤ roundQuotient (num * Nat.pow 2 (-q).toNat) (den * Nat.pow 2 q.toNat) := by
  have hscaled : 0 < den * Nat.pow 2 q.toNat :=
    Nat.mul_pos (Nat.pos_of_ne_zero hden) (Nat.two_pow_pos _)
  have hpos : (0 : ℚ) < (den * Nat.pow 2 q.toNat : Nat) := by exact_mod_cast hscaled
  refine le_trans ((Nat.le_div_iff_mul_le hscaled).2 ?_) (div_le_roundQuotient _ _)
  have hdigits : (0x10000000000000 : ℚ) ≤
      (num * Nat.pow 2 (-q).toNat : Nat) / (den * Nat.pow 2 q.toNat : Nat) := by
    rw [zpow_add₀ (by norm_num), mul_comm] at h
    rw [div_scaled, le_div_iff₀ (by positivity)]
    exact le_trans (le_of_eq (by norm_num)) h
  rw [le_div_iff₀ hpos] at hdigits
  exact_mod_cast hdigits

/-! ### Ranks -/

/-- **What is less than half a unit above a number rounds to no greater one.** -/
theorem rankOfRatio_le (hden : den ≠ 0)
    (h : (num : ℚ) / den < (x.significand + 1 / 2) * 2 ^ x.scale) : rankOfRatio num den ≤ x.rank := by
  by_cases hnum : num = 0
  · simp [rankOfRatio, hnum]
  · have hrank := x.rank_eq
    obtain ⟨hleast, hlt, -⟩ := scaleOfRatio_spec hnum hden
    rw [Fin.le_def, rankOfRatio_val hnum]
    refine (Nat.min_le_left _ _).trans ?_
    rcases (scaleOfRatio_le_scale hnum hden h.le).eq_or_lt with hscale | hsmaller
    · rw [hscale]
      have hround := roundQuotient_scaled_le hden h
      omega
    · -- at smaller scales there are smaller ranks only
      have hbig := x.le_significand (by omega)
      have hround := roundQuotient_scaled_le_of_lt hden hlt
      omega

theorem rank_ofRatio_le (hden : den ≠ 0) (negative : Bool) {e : Int}
    (h : (num : ℚ) / den * 2 ^ e < (x.significand + 1 / 2) * 2 ^ x.scale) :
    (ofRatio negative num den e).rank ≤ x.rank := by
  refine rankOfRatio_le (Nat.mul_ne_zero hden (Nat.ne_of_gt (Nat.two_pow_pos _))) ?_
  rwa [div_shifted]

/-- The greatest finite number. -/
def greatest : Binary64 := ⟨false, ⟨infinityRank - 1, by decide⟩⟩

theorem isFinite_of_rank_le (hfinite : y.isFinite = true) (h : x.rank ≤ y.rank) :
    x.isFinite = true := by
  have hlt : y.rank.val < infinityRank := by simpa [isFinite] using hfinite
  exact decide_eq_true ((Fin.le_def.1 h).trans_lt hlt)

/-- Division by at least one makes nothing greater. -/
theorem rank_div_le (hz : 1 ≤ z.magnitude) : (y / z).rank ≤ y.rank := by
  have hne : z.significand ≠ 0 := significand_ne_zero_of_magnitude (by linarith)
  have hnonneg : 0 ≤ y.magnitude := by
    rw [magnitude]
    positivity
  refine rank_ofRatio_le hne _ (lt_of_le_of_lt ?_ y.magnitude_lt)
  rw [← div_magnitude]
  exact div_le_self hnonneg hz

/-- A product that is less than half a unit above the greatest number is finite. -/
theorem isFinite_mul (h : y.magnitude * z.magnitude < (0x1fffffffffffff + 1 / 2) * 2 ^ (971 : Int)) :
    (y * z).isFinite = true := by
  have hscale : greatest.scale = 971 := by decide
  have hsignificand : greatest.significand = 0x1fffffffffffff := by decide
  refine isFinite_of_rank_le (y := greatest) (by decide) (rank_ofRatio_le one_ne_zero _ ?_)
  rw [← mul_magnitude, hscale, hsignificand]
  exact_mod_cast h

/-! ### Natural numbers -/

theorem rank_ofNat (n : Nat) : (ofNat n).rank = rankOfRatio n 1 := by
  simp [ofNat, ofRatio]

/-- Natural numbers up to 10³⁰⁸ are in range. -/
theorem isFinite_ofNat {n k : Nat} (hk : k ≤ 308) (hn : n ≤ 10 ^ k) : (ofNat n).isFinite = true := by
  have hscale : greatest.scale = 971 := by decide
  have hsignificand : greatest.significand = 0x1fffffffffffff := by decide
  have hrange : 10 ^ 308 < 0x1fffffffffffff * 2 ^ 971 := by decide +kernel
  have hlt : n < 0x1fffffffffffff * 2 ^ 971 :=
    calc n ≤ 10 ^ k := hn
      _ ≤ 10 ^ 308 := pow_le_pow_right₀ (by decide) hk
      _ < 0x1fffffffffffff * 2 ^ 971 := hrange
  refine isFinite_of_rank_le (y := greatest) (by decide) ?_
  rw [rank_ofNat]
  refine rankOfRatio_le one_ne_zero (lt_of_lt_of_le ?_ greatest.magnitude_lt.le)
  rw [magnitude, hscale, hsignificand, Nat.cast_one, div_one]
  exact_mod_cast hlt

/-- A rank is made up of a scale and a significand that may have become one digit longer. -/
theorem magnitude_of_rank {n m : Nat} (h : x.rank.val = n * 0x10000000000000 + m)
    (hm : m ≤ 0x20000000000000) (hn : n = 0 ∨ 0x10000000000000 ≤ m) :
    x.magnitude = m * 2 ^ ((n : Int) - 1074) := by
  rcases hm.eq_or_lt with rfl | hlt
  · -- one digit more is the first significand of the next scale
    obtain ⟨hscale, hsignificand⟩ := eq_of_rank_eq (x := x) (n := n + 1) (m := 0x10000000000000)
      (by omega) (by decide) (.inr le_rfl)
    have hnext : ((n + 1 : Nat) : Int) - 1074 = 1 + (n - 1074) := by omega
    rw [magnitude, hscale, hsignificand, hnext, zpow_add₀ (by norm_num)]
    norm_num
    ring
  · obtain ⟨hscale, hsignificand⟩ := eq_of_rank_eq h hlt hn
    rw [magnitude, hscale, hsignificand]

section

variable {n : Nat} (hn : n ≠ 0) (hfinite : (ofNat n).isFinite = true)

include hn hfinite

/-- A natural number is rounded to 53 binary digits. -/
theorem exists_magnitude_ofNat : ∃ (q : Int) (m : Nat), -52 ≤ q ∧ 0x10000000000000 ≤ m ∧
    (m : ℚ) ≤ n / 2 ^ q + 1 / 2 ∧ (2 : ℚ) ^ (q + 52) ≤ n ∧
    (ofNat n).magnitude = m * 2 ^ q := by
  have hbound : (ofNat n).rank.val < infinityRank := by simpa [isFinite] using hfinite
  have hone : (1 : ℚ) ≤ n := by exact_mod_cast Nat.one_le_iff_ne_zero.2 hn
  obtain ⟨-, hlt, hge⟩ := scaleOfRatio_spec hn one_ne_zero
  have hquotient : (n : ℚ) / (1 : Nat) = n := by simp
  have hrank : (rankOfRatio n 1).val = _ := rankOfRatio_val hn
  rw [← rank_ofNat] at hrank
  generalize scaleOfRatio n 1 = q at hlt hge hrank
  -- numbers from one on are far above the least scale
  have hq : -52 ≤ q := by
    rw [hquotient] at hlt
    have hless : (2 : ℚ) ^ (0 : Int) < 2 ^ (q + 53) := by simpa using hone.trans_lt hlt
    have hlog : 0 < q + 53 := (zpow_lt_zpow_iff_right₀ (by norm_num)).1 hless
    omega
  have hlow := le_roundQuotient_scaled one_ne_zero (hge (by omega))
  have hhigh := roundQuotient_scaled_le_of_lt one_ne_zero hlt
  have hhalf : (roundQuotient (n * Nat.pow 2 (-q).toNat) (1 * Nat.pow 2 q.toNat) : ℚ) ≤
      n / 2 ^ q + 1 / 2 := by
    rw [← hquotient, ← div_scaled]
    exact roundQuotient_le_add_half (Nat.mul_pos Nat.one_pos (Nat.two_pow_pos _))
  have hscale : (((q + 1074).toNat : Nat) : Int) - 1074 = q := by omega
  refine ⟨q, _, hq, hlow, hhalf, hquotient ▸ hge (by omega), ?_⟩
  have hmagnitude := magnitude_of_rank (hrank.trans (min_eq_left (by omega))) hhigh (.inr hlow)
  rwa [hscale] at hmagnitude

theorem one_le_magnitude_ofNat : 1 ≤ (ofNat n).magnitude := by
  obtain ⟨q, m, hq, hm, -, -, hmagnitude⟩ := exists_magnitude_ofNat hn hfinite
  have hdigits : (2 : ℚ) ^ (52 : Int) ≤ m := by
    refine le_trans (le_of_eq (by norm_num)) (Nat.cast_le.2 hm)
  calc (1 : ℚ) ≤ 2 ^ (52 + q) := one_le_zpow₀ (by norm_num) (by omega)
    _ = 2 ^ (52 : Int) * 2 ^ q := zpow_add₀ (by norm_num) _ _
    _ ≤ m * 2 ^ q := mul_le_mul_of_nonneg_right hdigits (by positivity)
    _ = (ofNat n).magnitude := hmagnitude.symm

/-- **Rounding a natural number adds at most its 2⁵³th part.** -/
theorem magnitude_ofNat_le : (ofNat n).magnitude ≤ n * (1 + 1 / 2 ^ 53) := by
  obtain ⟨q, m, -, -, hm, hdigits, hmagnitude⟩ := exists_magnitude_ofNat hn hfinite
  have hpow : (0 : ℚ) < 2 ^ q := by positivity
  have hunit : (2 : ℚ) ^ q ≤ n / 2 ^ 52 := by
    rw [zpow_add₀ (by norm_num)] at hdigits
    rw [le_div_iff₀ (by norm_num)]
    exact_mod_cast hdigits
  calc (ofNat n).magnitude = m * 2 ^ q := hmagnitude
    _ ≤ (n / 2 ^ q + 1 / 2) * 2 ^ q := mul_le_mul_of_nonneg_right hm hpow.le
    _ = n + 2 ^ q / 2 := by field_simp
    _ ≤ n * (1 + 1 / 2 ^ 53) := by linarith

end

section

variable {k : Nat} (hk : k ≤ 308)

include hk

theorem one_le_magnitude_powerOfTen : 1 ≤ (powerOfTen k).magnitude :=
  one_le_magnitude_ofNat (Nat.pow_pos (by decide)).ne' (isFinite_ofNat hk le_rfl)

theorem magnitude_powerOfTen_le : (powerOfTen k).magnitude ≤ 10 ^ k * (1 + 1 / 2 ^ 53) := by
  have hle : (powerOfTen k).magnitude ≤ (Nat.pow 10 k : Nat) * (1 + 1 / 2 ^ 53) :=
    magnitude_ofNat_le (Nat.pow_pos (by decide)).ne' (isFinite_ofNat hk le_rfl)
  simpa using hle

end

end RecordFilter.Binary64
