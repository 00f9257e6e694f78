import RecordFilter.Proofs.Decimal.Nearest
import RecordFilter.Proofs.Decimal.Reading

/-!
# Plain texts are read back

The plain text of a finite number is a decimal with the value of its shortest one
(`Decimal.exists_isSpelling_plain`), so it is read as this number (`Binary64.ofText?_plainText`).
Where this text has no point, it is also the text of an integer
(`Binary64.integerText_of_plainText`), unless it is that of the negative zero, which no integer
has.
-/

namespace RecordFilter

open Numeral (IsDigits)

namespace Decimal

variable {d : Decimal}

/-! ### The characters -/

/-- Zeros behind the digits of a number multiply it by powers of ten. -/
theorem toDigits_mul_pow {m : Nat} (h : m ≠ 0) (k : Nat) :
    Nat.toDigits 10 (m * 10 ^ k) = Nat.toDigits 10 m ++ List.replicate k '0' := by
  induction k with
  | zero => simp
  | succ k ih =>
    have hpos : 0 < m * 10 ^ k := Nat.mul_pos (Nat.pos_of_ne_zero h) (Nat.pow_pos (by decide))
    have hzero : Nat.toDigits 10 0 = ['0'] := rfl
    rw [List.replicate_succ', ← List.append_assoc, ← ih, ← hzero,
      Nat.toDigits_append_toDigits (by decide) hpos (by decide)]
    congr 1
    ring

/-- A decimal without a fraction is written as an integer. -/
theorem toList_plain_of_nonneg (h : 0 ≤ d.exponent) (hd : d.digits = 0 → d.exponent = 0) :
    (Layout.plain.text d).toList = Nat.toDigits 10 (d.digits * 10 ^ d.exponent.toNat) := by
  have htext : (Layout.plain.text d).toList =
      Nat.toDigits 10 d.digits ++ List.replicate d.exponent.toNat '0' := by
    simp [Layout.text, Layout.plain, Layout.positionalText, h]
  rw [htext]
  by_cases hzero : d.digits = 0
  · simp [hzero, hd hzero]
  · exact (toDigits_mul_pow hzero _).symm

/-- A decimal with a fraction is written as the same digits, with a point and maybe with zeros in
front. -/
theorem exists_toList_plain_of_neg (h : d.exponent < 0) :
    ∃ whole fraction, (Layout.plain.text d).toList = whole ++ '.' :: fraction ∧
      IsDigits (whole ++ fraction) ∧ Nat.ofDigitChars 10 (whole ++ fraction) 0 = d.digits ∧
      d.exponent = -(fraction.length : Int) := by
  have hdigits := IsDigits.toDigits d.digits
  have hvalue := Nat.ofDigitChars_ten_toDigits (n := d.digits)
  by_cases hplaces : (-d.exponent).toNat < (Nat.toDigits 10 d.digits).length
  · refine ⟨(Nat.toDigits 10 d.digits).take ((Nat.toDigits 10 d.digits).length -
        (-d.exponent).toNat), (Nat.toDigits 10 d.digits).drop ((Nat.toDigits 10 d.digits).length -
        (-d.exponent).toNat), ?_, ?_, ?_, ?_⟩
    · simp [Layout.text, Layout.plain, Layout.positionalText, not_le.2 h, hplaces]
    · rwa [List.take_append_drop]
    · rwa [List.take_append_drop]
    · rw [List.length_drop]
      omega
  · refine ⟨['0'], List.replicate ((-d.exponent).toNat - (Nat.toDigits 10 d.digits).length) '0' ++
        Nat.toDigits 10 d.digits, ?_, ?_, ?_, ?_⟩
    · simp [Layout.text, Layout.plain, Layout.positionalText, not_le.2 h, hplaces]
    · exact (hdigits.zeros_append _).zeros_append 1
    · rw [Nat.ofDigitChars_append, Nat.ofDigitChars_append, Nat.ofDigitChars_replicate_zero]
      exact hvalue
    · rw [List.length_append, List.length_replicate]
      omega

/-- **Plain texts are decimals** of the value that is written. -/
theorem exists_isSpelling_plain (hd : d.digits = 0 → d.exponent = 0) :
    ∃ d', IsSpelling (Layout.plain.text d).toList d' ∧ d'.value = d.value := by
  by_cases h : 0 ≤ d.exponent
  · have hspelling := IsSpelling.integral
      (IsDigits.toDigits (d.digits * 10 ^ d.exponent.toNat)) .absent
    rw [List.append_nil, ← toList_plain_of_nonneg h hd, toList_plain_of_nonneg h hd,
      Nat.ofDigitChars_ten_toDigits, ← toList_plain_of_nonneg h hd] at hspelling
    refine ⟨_, hspelling, ?_⟩
    obtain ⟨k, hk⟩ := Int.eq_ofNat_of_zero_le h
    simp [value, hk]
  · obtain ⟨whole, fraction, htext, hdigits, hvalue, hexponent⟩ :=
      exists_toList_plain_of_neg (not_le.1 h)
    have hspelling := IsSpelling.pointed hdigits .absent
    rw [List.append_nil, ← htext, hvalue, zero_sub, ← hexponent] at hspelling
    exact ⟨d, hspelling, rfl⟩

end Decimal

namespace Binary64

variable {x : Binary64}

/-- The sign of a number, as its texts have it. -/
def signChars (x : Binary64) : List Char := if x.negative then ['-'] else []

theorem isSign_signChars (x : Binary64) : IsSign x.signChars x.negative := by
  cases h : x.negative <;> simp only [signChars, h]
  · exact .absent
  · exact .minus

theorem toList_plainText (hfinite : x.isFinite = true) : x.plainText.toList =
    x.signChars ++ (Decimal.Layout.plain.text (Decimal.shortest x .up)).toList := by
  have hnan : ¬x.isNaN = true := by
    simp only [isFinite, isNaN, decide_eq_true_eq] at *
    omega
  rw [plainText, if_neg hnan, if_pos hfinite, Binary64.text, String.toList_append]
  cases h : x.negative <;> simp [signChars, h, Decimal.Layout.plain]

theorem exists_isSpelling_shortest (x : Binary64) : ∃ d,
    Decimal.IsSpelling (Decimal.Layout.plain.text (Decimal.shortest x .up)).toList d ∧
      d.value = (Decimal.shortest x .up).value :=
  Decimal.exists_isSpelling_plain Decimal.exponent_shortest_of_digits

/-- What has the value of the shortest decimal is read as the number. -/
theorem nearest_of_value_eq (hfinite : x.isFinite = true) {d : Decimal} {tie : Decimal.Tie}
    (h : d.value = (Decimal.shortest x tie).value) : d.nearest x.negative = x := by
  cases hzero : x.isZero with
  | false => exact Decimal.nearest_of_covers hfinite hzero (h ▸ Decimal.covers_shortest hzero tie)
  | true =>
    have hdigits : d.digits = 0 := by
      have hten : (10 : ℚ) ^ d.exponent ≠ 0 := by positivity
      simpa [Decimal.value, Decimal.shortest, hzero, hten] using h
    obtain ⟨negative, rank⟩ := x
    obtain rfl : rank = 0 := Fin.ext (by simpa [isZero] using hzero)
    exact Decimal.nearest_of_digits_eq_zero hdigits negative

/-- **The plain text of a number is read back** as this number, and that of a NaN as a NaN. -/
theorem ofText?_plainText (x : Binary64) :
    ofText? x.plainText = some (if x.isNaN then nan else x) := by
  by_cases hnan : x.isNaN = true
  · rw [plainText, if_pos hnan, if_pos hnan]
    rfl
  · rw [if_neg hnan]
    by_cases hfinite : x.isFinite = true
    · obtain ⟨d, hspelling, hvalue⟩ := x.exists_isSpelling_shortest
      rw [ofText?_of_isSpelling (toList_plainText hfinite) x.isSign_signChars hspelling,
        nearest_of_value_eq hfinite hvalue]
    · -- an infinity is left
      have hrank : x.rank = ⟨infinityRank, by decide⟩ := by
        simp only [isFinite, isNaN, decide_eq_true_eq] at *
        exact Fin.ext (by simp only; omega)
      obtain ⟨negative, rank⟩ := x
      obtain rfl := hrank
      cases negative <;> decide +kernel

/-- The number that is read has the same plain text. -/
theorem plainText_reread (x : Binary64) : (if x.isNaN then nan else x).plainText = x.plainText := by
  by_cases hnan : x.isNaN = true
  · rw [if_pos hnan, plainText, plainText, if_pos hnan]
    rfl
  · rw [if_neg hnan]

/-! ### Integers -/

/-- A finite number whose plain text is digits behind its sign is an integer with these digits. -/
theorem exists_eq_toDigits_of_plainText (hfinite : x.isFinite = true) {sign ds : List Char}
    {negative : Bool} (htext : x.plainText.toList = sign ++ ds) (hsign : IsSign sign negative)
    (hds : IsDigits ds) : negative = x.negative ∧ ∃ m, ds = Nat.toDigits 10 m ∧
      x.plainText.toList = x.signChars ++ Nat.toDigits 10 m := by
  obtain ⟨d, hspelling, -⟩ := x.exists_isSpelling_shortest
  have hunsigned : IsUnsignedText _ := .inr ⟨d, hspelling⟩
  -- the sign and what is behind it can be told apart in one way only
  have hread := hsign.readSign_append (by simpa using unsigned_of_isDigits hds [])
  have hread' := x.isSign_signChars.readSign_append hunsigned.unsigned
  rw [← htext, toList_plainText hfinite] at hread
  obtain ⟨hnegative, hbody⟩ := Prod.mk.inj (hread.symm.trans hread')
  have hnonneg : 0 ≤ (Decimal.shortest x .up).exponent := by
    by_contra hneg
    obtain ⟨whole, fraction, hpoint, -⟩ := Decimal.exists_toList_plain_of_neg (not_le.1 hneg)
    have hdigit := hds.2 '.' (by simp [hbody, hpoint])
    exact absurd hdigit (by decide)
  have hdigits := Decimal.toList_plain_of_nonneg hnonneg Decimal.exponent_shortest_of_digits
  exact ⟨hnegative, _, hbody.trans hdigits, hdigits ▸ toList_plainText hfinite⟩

/-- **A plain text that is read as an integer** is the text of this integer, if it is not that of
the negative zero. -/
theorem integerText_of_plainText {n : Int} (h : readInteger? 10 x.plainText.toList = some n)
    (hzero : x.plainText ≠ "-0") : integerText n = x.plainText := by
  obtain ⟨sign, ds, negative, htext, hsign, hds, rfl, -⟩ := readInteger?_ten_eq_some_iff.1 h
  by_cases hfinite : x.isFinite = true
  · obtain ⟨rfl, m, rfl, hplain⟩ := exists_eq_toDigits_of_plainText hfinite htext hsign hds
    rw [Nat.ofDigitChars_ten_toDigits, ← String.toList_inj, hplain]
    cases hnegative : x.negative with
    | false =>
      rw [signChars, hnegative]
      exact Numeral.toList_integerText_natCast m
    | true =>
      rw [signChars, hnegative, if_pos rfl] at hplain ⊢
      have hpos : 0 < m := by
        rw [Nat.pos_iff_ne_zero]
        rintro rfl
        exact hzero (String.toList_inj.1 hplain)
      exact Numeral.toList_integerText_neg hpos
  · -- words are no integers
    have hword : x.plainText ∈ ["NaN", "inf", "-inf"] := by
      rw [plainText, if_neg hfinite]
      split
      · simp
      · split <;> simp
    have hnone : ∀ s ∈ ["NaN", "inf", "-inf"], readInteger? 10 s.toList = none := by decide
    simp [hnone _ hword] at h

end Binary64

end RecordFilter
