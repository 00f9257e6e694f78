import Mathlib.Algebra.Group.Nat.Defs
import RecordFilter.Proofs.Numeral.Spelling

/-!
# Written decimals are read

The JSON text of a decimal is the text of a numeral (`Decimal.toList_text`). What a reader gathers
from it are the digits of the decimal and its exponent, except that the zero behind the point of an
integral value counts as a digit (`Decimal.written`), and it denotes the float that these are scaled
to (`Decimal.value?_numeral`).
-/

namespace RecordFilter.Decimal

open Numeral (IsDigits)

variable {d : Decimal} {negative : Bool}

/-! ### Numerals -/

/-- The exponent of the first digit. -/
def leading (d : Decimal) : Int := d.exponent + (Nat.toDigits 10 d.digits).length - 1

/-- The decimal is written with its point among the digits, and without an exponent. -/
def IsPositional (d : Decimal) : Prop := -5 ≤ d.leading ∧ d.leading ≤ 15

instance (d : Decimal) : Decidable d.IsPositional := inferInstanceAs (Decidable (_ ∧ _))

/-- The numeral that JSON texts have for a decimal behind a sign. -/
def numeral (negative : Bool) (d : Decimal) : Numeral :=
  let ds := Nat.toDigits 10 d.digits
  let places := (-d.exponent).toNat
  if d.IsPositional then
    if 0 ≤ d.exponent then
      ⟨negative, ds ++ List.replicate d.exponent.toNat '0', some ['0'], none⟩
    else if places < ds.length then
      ⟨negative, ds.take (ds.length - places), some (ds.drop (ds.length - places)), none⟩
    else ⟨negative, ['0'], some (List.replicate (places - ds.length) '0' ++ ds), none⟩
  else
    ⟨negative, ds.take 1, if ds.length = 1 then none else some (ds.drop 1),
      some (decide (d.leading < 0), Nat.toDigits 10 d.leading.natAbs)⟩

/-- The significand and the power of ten that the JSON text of a decimal shows. -/
def written (d : Decimal) : Nat × Int :=
  if d.IsPositional ∧ 0 ≤ d.exponent then (d.digits * 10 ^ (d.exponent.toNat + 1), -1)
  else (d.digits, d.exponent)

theorem text_json (d : Decimal) : Layout.json.text d =
    if d.IsPositional then Layout.json.positionalText d
    else Layout.json.scientificText d d.leading := rfl

theorem toList_positionalText (h : d.IsPositional) (negative : Bool) :
    (if negative then ['-'] else []) ++ (Layout.json.positionalText d).toList =
      (d.numeral negative).chars := by
  by_cases hexponent : 0 ≤ d.exponent
  · simp [numeral, h, hexponent, Layout.positionalText, Layout.json, Numeral.chars,
      Numeral.fractionChars, Numeral.exponentChars]
  · by_cases hplaces : (-d.exponent).toNat < (Nat.toDigits 10 d.digits).length
    · simp [numeral, h, hexponent, hplaces, Layout.positionalText, Numeral.chars,
        Numeral.fractionChars, Numeral.exponentChars]
    · simp [numeral, h, hexponent, hplaces, Layout.positionalText, Numeral.chars,
        Numeral.fractionChars, Numeral.exponentChars]

theorem toList_scientificText (h : ¬ d.IsPositional) (negative : Bool) :
    (if negative then ['-'] else []) ++ (Layout.json.scientificText d d.leading).toList =
      (d.numeral negative).chars := by
  obtain ⟨first, rest, hdigits⟩ :=
    List.exists_cons_of_ne_nil (Nat.toDigits_ne_nil (b := 10) (n := d.digits))
  cases rest <;> by_cases hneg : d.leading < 0 <;>
    simp [numeral, h, hdigits, hneg, Layout.scientificText, Layout.json, Numeral.chars,
      Numeral.fractionChars, Numeral.exponentChars]

/-- **A decimal is written as its numeral.** -/
theorem toList_text (negative : Bool) (d : Decimal) :
    ((if negative then "-" else "") ++ Layout.json.text d).toList = (d.numeral negative).chars := by
  have hsign : (if negative then "-" else "").toList = if negative then ['-'] else [] := by
    cases negative <;> rfl
  rw [String.toList_append, hsign, text_json]
  by_cases h : d.IsPositional
  · rw [if_pos h]
    exact toList_positionalText h negative
  · rw [if_neg h]
    exact toList_scientificText h negative

/-! ### What the numeral denotes -/

theorem isSpelled_numeral (negative : Bool) (d : Decimal) : (d.numeral negative).IsSpelled := by
  have hdigits := IsDigits.toDigits d.digits
  have hpos := hdigits.length_pos
  rw [numeral]
  generalize Nat.toDigits 10 d.digits = ds at hdigits hpos
  split
  · split
    · exact ⟨hdigits.append_zeros _, by simp [IsDigits], by simp⟩
    · split
      · refine ⟨hdigits.take (by omega), ?_, by simp⟩
        simpa only [Option.mem_some_iff, forall_eq'] using hdigits.drop (by omega)
      · exact ⟨by simp [IsDigits], by simpa using hdigits.zeros_append _, by simp⟩
  · refine ⟨hdigits.take Nat.one_pos, ?_, by simpa using IsDigits.toDigits _⟩
    split
    · simp
    · simpa only [Option.mem_some_iff, forall_eq'] using hdigits.drop (by omega)

/-- Only zero has a zero for its first digit. -/
theorem eq_nil_of_toDigits {ds : List Char} (h : Nat.toDigits 10 d.digits = '0' :: ds) :
    ds = [] ∧ d.digits = 0 := by
  have hnil := Numeral.eq_nil_of_toDigits_eq_cons h
  have hvalue := Nat.ofDigitChars_ten_toDigits (n := d.digits)
  rw [h, hnil] at hvalue
  exact ⟨hnil, hvalue.symm⟩

/-- No zero stands in front of other digits, if zero is written without others. -/
theorem hasLeadingZero_numeral (hd : d.digits = 0 → d.exponent = 0) (negative : Bool) :
    (d.numeral negative).hasLeadingZero = false := by
  obtain ⟨first, rest, hdigits⟩ :=
    List.exists_cons_of_ne_nil (Nat.toDigits_ne_nil (b := 10) (n := d.digits))
  by_cases hfirst : first = '0'
  · -- this is zero, which has its point right behind the digit
    rw [hfirst] at hdigits
    obtain ⟨rfl, hzero⟩ := eq_nil_of_toDigits hdigits
    have hexponent := hd hzero
    have hpositional : d.IsPositional := by simp [IsPositional, leading, hdigits, hexponent]
    simp [numeral, hpositional, hexponent, hdigits, Numeral.hasLeadingZero]
  · have hcons (ds : List Char) (fraction : Option (List Char))
        (exponent : Option (Bool × List Char)) :
        Numeral.hasLeadingZero ⟨negative, first :: ds, fraction, exponent⟩ = false := by
      unfold Numeral.hasLeadingZero
      split
      · rename_i h
        exact absurd (List.cons.inj h).1 hfirst
      · rfl
    rw [numeral, hdigits]
    split
    · split
      · exact hcons _ _ _
      · split
        · rw [List.take_cons (by omega)]
          exact hcons _ _ _
        · rfl
    · exact hcons _ _ _

/-- Either a point or an exponent is written, so the numeral denotes no integer. -/
theorem value?_eq (hd : d.digits = 0 → d.exponent = 0) (negative : Bool) :
    (d.numeral negative).value? = Number.ofBinary64? (d.numeral negative).floatValue := by
  rw [Numeral.value?, hasLeadingZero_numeral hd, if_neg Bool.false_ne_true]
  have hnone : (d.numeral negative).fraction ≠ none ∨ (d.numeral negative).exponent ≠ none := by
    rw [numeral]
    split
    · split
      · exact .inl (by simp)
      · split <;> exact .inl (by simp)
    · exact .inr (by simp)
  split
  · rename_i hfraction hexponent
    rw [hfraction, hexponent] at hnone
    simp at hnone
  · rfl

/-- A digit that stands alone has none behind the point. -/
theorem getD_drop_one (ds : List Char) :
    (if ds.length = 1 then none else some (ds.drop 1)).getD [] = ds.drop 1 := by
  split
  · rename_i hlength
    rw [Option.getD_none, List.drop_of_length_le hlength.le]
  · rfl

/-- The digits of the numeral are those of the significand that it shows. -/
theorem ofDigitChars_numeral (negative : Bool) (d : Decimal) :
    Nat.ofDigitChars 10
      ((d.numeral negative).whole ++ (d.numeral negative).fraction.getD []) 0 = d.written.1 := by
  have hdigits := Nat.ofDigitChars_ten_toDigits (n := d.digits)
  rw [numeral, written]
  generalize Nat.toDigits 10 d.digits = ds at hdigits ⊢
  by_cases hpositional : d.IsPositional
  · by_cases hexponent : 0 ≤ d.exponent
    · have hzeros : List.replicate d.exponent.toNat '0' ++ ['0'] =
          List.replicate (d.exponent.toNat + 1) '0' := List.replicate_succ'.symm
      simp only [hpositional, hexponent, if_true, and_self, Option.getD_some, List.append_assoc]
      rw [hzeros, Nat.ofDigitChars_append, Nat.ofDigitChars_replicate_zero, hdigits, Nat.mul_comm]
    · by_cases hplaces : (-d.exponent).toNat < ds.length
      · simpa [hpositional, hexponent, hplaces] using hdigits
      · have hzeros : '0' :: List.replicate ((-d.exponent).toNat - ds.length) '0' =
            List.replicate ((-d.exponent).toNat - ds.length + 1) '0' := List.replicate_succ.symm
        simp only [hpositional, hexponent, hplaces, if_true, if_false, and_false, Option.getD_some,
          List.singleton_append]
        rw [← List.cons_append, hzeros, Nat.ofDigitChars_append, Nat.ofDigitChars_replicate_zero,
          Nat.mul_zero, hdigits]
  · simp only [hpositional, if_false, false_and, getD_drop_one, List.take_append_drop]
    exact hdigits

/-- The exponent of the numeral and the places behind its point give the power of ten that it
shows. -/
theorem shift_numeral (negative : Bool) (d : Decimal) :
    (d.numeral negative).shift - ((d.numeral negative).fraction.getD []).length = d.written.2 := by
  have hlength := (IsDigits.toDigits d.digits).length_pos
  have hleading : d.leading = d.exponent + (Nat.toDigits 10 d.digits).length - 1 := rfl
  rw [numeral, written]
  generalize Nat.toDigits 10 d.digits = ds at hlength hleading ⊢
  by_cases hpositional : d.IsPositional
  · by_cases hexponent : 0 ≤ d.exponent
    · simp [hpositional, hexponent, Numeral.shift]
    · by_cases hplaces : (-d.exponent).toNat < ds.length
      · simp only [hpositional, hexponent, hplaces, if_true, if_false, and_false, Numeral.shift,
          Option.getD_some, List.length_drop]
        omega
      · simp only [hpositional, hexponent, hplaces, if_true, if_false, and_false, Numeral.shift,
          Option.getD_some, List.length_append, List.length_replicate]
        omega
  · simp only [hpositional, if_false, false_and, getD_drop_one, List.length_drop, Numeral.shift]
    by_cases hneg : d.leading < 0
    · rw [decide_eq_true hneg]
      simp only [Nat.ofDigitChars_ten_toDigits]
      omega
    · rw [decide_eq_false hneg]
      simp only [Nat.ofDigitChars_ten_toDigits]
      omega

theorem written_lt (h : d.digits < 0x10000000000000000) : d.written.1 < 0x10000000000000000 := by
  rw [written]
  split
  · rename_i hpositional
    obtain ⟨⟨-, hle⟩, hexponent⟩ := hpositional
    have hlt : d.digits < 10 ^ (Nat.toDigits 10 d.digits).length :=
      (Nat.length_toDigits_le_iff (by decide) (IsDigits.toDigits _).length_pos).1 (Nat.le_refl _)
    rw [leading] at hle
    calc d.digits * 10 ^ (d.exponent.toNat + 1)
        < 10 ^ (Nat.toDigits 10 d.digits).length * 10 ^ (d.exponent.toNat + 1) :=
          Nat.mul_lt_mul_of_pos_right hlt (Nat.pow_pos (by decide))
      _ = 10 ^ ((Nat.toDigits 10 d.digits).length + (d.exponent.toNat + 1)) :=
          (Nat.pow_add _ _ _).symm
      _ ≤ 10 ^ 17 := Nat.pow_le_pow_right (by decide) (by omega)
      _ < 0x10000000000000000 := by decide
  · exact h

/-- **What a written decimal denotes**: the float to which its significand is scaled. -/
theorem value?_numeral (hd : d.digits = 0 → d.exponent = 0)
    (hfits : d.digits < 0x10000000000000000) (negative : Bool) :
    (d.numeral negative).value? = Number.ofBinary64?
      ⟨negative, (Numeral.scaled d.written.1 d.written.2).rank⟩ := by
  have hsign : (d.numeral negative).negative = negative := by
    rw [numeral]
    split
    · split
      · rfl
      · split <;> rfl
    · rfl
  rw [value?_eq hd, Numeral.floatValue_eq (ofDigitChars_numeral negative d) (written_lt hfits),
    shift_numeral, hsign]

end RecordFilter.Decimal
