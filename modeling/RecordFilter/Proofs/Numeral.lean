import Mathlib.Data.List.TakeWhile
import RecordFilter.Numeral

/-!
# Reading integers back

`readNumber?_integerText`: an integer of at most 64 bits is read back from its digits, and its
sign if it is negative, as the same integer. What follows must not continue a numeral
(`Numeral.Ends`): a digit, a point or the mark of an exponent behind the last digit would. Of any
numeral it is known that it takes a character at least and no more than there are
(`readNumber?_width_pos`, `readNumber?_width_le`).
-/

namespace RecordFilter

/-- A run at the front is not made longer by what follows if that does not continue it. -/
theorem takeWhile_append_of_head {α : Type} {p : α → Bool} {rest : List α}
    (h : ∀ a ∈ rest.head?, p a = false) (as : List α) :
    (as ++ rest).takeWhile p = as.takeWhile p := by
  have hnone : rest.takeWhile p = [] := by
    cases rest with
    | nil => rfl
    | cons a rest => simp [h a (by simp)]
  rw [List.takeWhile_append]
  split
  · rename_i hall
    rw [hnone, List.append_nil]
    exact ((List.takeWhile_prefix p).eq_of_length hall).symm
  · rfl

namespace Numeral

/-- The characters behind a numeral do not continue it. -/
def Ends (rest : List Char) : Prop :=
  ∀ c ∈ rest.head?, c.isDigit = false ∧ c ≠ '.' ∧ c ≠ 'e' ∧ c ≠ 'E'

/-! ### Scanning -/

/-- Digits are taken as far as nothing continues them. -/
theorem digits_append_of_head {ds rest : List Char} (hds : ∀ d ∈ ds, d.isDigit = true)
    (hrest : ∀ c ∈ rest.head?, c.isDigit = false) : digits (ds ++ rest) = ds := by
  rw [digits, takeWhile_append_of_head hrest]
  exact List.takeWhile_eq_self_iff.2 hds

theorem scanFraction?_eq_none {rest : List Char} (h : Ends rest) : scanFraction? rest = none := by
  unfold scanFraction?
  split
  · exact absurd rfl (h '.' (by simp)).2.1
  · rfl

theorem scanExponent?_eq_none {rest : List Char} (h : Ends rest) : scanExponent? rest = none := by
  unfold scanExponent?
  split
  · rename_i mark more
    obtain ⟨-, -, hlower, hupper⟩ := h mark (by simp)
    simp [hlower, hupper]
  · rfl

/-- Digits with nothing behind them that continues them are a numeral by themselves. -/
theorem scanUnsigned?_append (negative : Bool) {ds rest : List Char} (hne : ds ≠ [])
    (hds : ∀ d ∈ ds, d.isDigit = true) (hrest : Ends rest) :
    scanUnsigned? negative (ds ++ rest) = some (⟨negative, ds, none, none⟩, ds.length) := by
  have hempty : ds.isEmpty = false := by simpa using hne
  have hdigits := digits_append_of_head hds fun c hc => (hrest c hc).1
  simp [scanUnsigned?, hdigits, hempty, scanFraction?_eq_none hrest, fractionWidth,
    scanExponent?_eq_none hrest]

theorem scanUnsigned?_width_pos {negative : Bool} {cs : List Char} {n : Numeral} {width : Nat}
    (h : scanUnsigned? negative cs = some (n, width)) : 0 < width := by
  unfold scanUnsigned? at h
  simp only at h
  split at h
  · simp at h
  · rename_i hdigits
    have hpos : 0 < (digits cs).length := List.length_pos_iff.2 (by simpa using hdigits)
    split at h <;>
    · obtain ⟨-, rfl⟩ := Prod.mk.inj (Option.some.inj h)
      omega

theorem scan?_width_pos {cs : List Char} {n : Numeral} {width : Nat}
    (h : scan? cs = some (n, width)) : 0 < width := by
  unfold scan? at h
  split at h
  · obtain ⟨r, -, hr⟩ := Option.map_eq_some_iff.1 h
    have hwidth : r.2 + 1 = width := congrArg Prod.snd hr
    omega
  · exact scanUnsigned?_width_pos h

/-! ### Widths -/

theorem length_digits_le (cs : List Char) : (digits cs).length ≤ cs.length :=
  (List.takeWhile_prefix _).length_le

theorem fractionWidth_le (cs : List Char) : fractionWidth (scanFraction? cs) ≤ cs.length := by
  unfold scanFraction?
  split
  · rename_i rest
    have hdigits := length_digits_le rest
    split
    · exact Nat.zero_le _
    · simpa [fractionWidth] using hdigits
  · exact Nat.zero_le _

theorem scanPower?_width_le {cs ds : List Char} {minus : Bool} {width : Nat}
    (h : scanPower? cs = some (minus, ds, width)) : width ≤ cs.length + 1 := by
  unfold scanPower? at h
  split at h
  rename_i skipped rest hsplit
  -- the mark of the exponent is counted, but stands in front of these characters
  have hskipped : skipped + rest.length = cs.length + 1 := by
    split at hsplit
    · obtain ⟨-, rfl, rfl⟩ : _ ∧ _ ∧ _ := by simpa using hsplit
      simp only [List.length_cons]
      omega
    · obtain ⟨-, rfl, rfl⟩ : _ ∧ _ ∧ _ := by simpa using hsplit
      simp only [List.length_cons]
      omega
    · obtain ⟨-, rfl, rfl⟩ : _ ∧ _ ∧ _ := by simpa using hsplit
      omega
  have hdigits := length_digits_le rest
  split at h
  · simp at h
  · obtain ⟨-, -, rfl⟩ : _ ∧ _ ∧ _ := by simpa using h
    omega

theorem scanExponent?_width_le {cs ds : List Char} {minus : Bool} {width : Nat}
    (h : scanExponent? cs = some (minus, ds, width)) : width ≤ cs.length := by
  unfold scanExponent? at h
  split at h
  · split at h
    · exact scanPower?_width_le h
    · simp at h
  · simp at h

theorem scanUnsigned?_width_le {negative : Bool} {cs : List Char} {n : Numeral} {width : Nat}
    (h : scanUnsigned? negative cs = some (n, width)) : width ≤ cs.length := by
  have hwhole := length_digits_le cs
  have hfraction := fractionWidth_le (cs.drop (digits cs).length)
  rw [List.length_drop] at hfraction
  unfold scanUnsigned? at h
  simp only at h
  split at h
  · simp at h
  · split at h
    · obtain ⟨-, rfl⟩ := Prod.mk.inj (Option.some.inj h)
      omega
    · rename_i hexponent
      obtain ⟨-, rfl⟩ := Prod.mk.inj (Option.some.inj h)
      have hmore := scanExponent?_width_le hexponent
      rw [List.length_drop] at hmore
      omega

/-- A numeral takes no more characters than there are. -/
theorem scan?_width_le {cs : List Char} {n : Numeral} {width : Nat}
    (h : scan? cs = some (n, width)) : width ≤ cs.length := by
  unfold scan? at h
  split at h
  · obtain ⟨r, hr, hmap⟩ := Option.map_eq_some_iff.1 h
    have hwidth : r.2 + 1 = width := congrArg Prod.snd hmap
    have hle := scanUnsigned?_width_le (n := r.1) hr
    rw [List.length_cons]
    omega
  · exact scanUnsigned?_width_le h

/-! ### Decimal digits -/

theorem isDigit_of_mem_toDigits {n : Nat} {d : Char} (h : d ∈ Nat.toDigits 10 n) :
    d.isDigit = true :=
  Nat.isDigit_of_mem_toDigits (by decide) (by decide) h

/-- Only the digits of zero start with a zero. -/
theorem eq_nil_of_toDigits_eq_cons {n : Nat} {ds : List Char}
    (h : Nat.toDigits 10 n = '0' :: ds) : ds = [] := by
  induction n using Nat.strongRecOn generalizing ds with
  | ind n ih =>
    rcases Nat.lt_or_ge n 10 with hlt | hge
    · rw [Nat.toDigits_of_lt_base hlt] at h
      simpa using (List.cons.inj h).2.symm
    · rw [Nat.toDigits_of_base_le (by decide) hge] at h
      obtain ⟨-, hnil⟩ | ⟨es, hes, -⟩ := List.append_eq_cons_iff.1 h
      · simpa using (List.cons.inj hnil).2.symm
      · -- the front digits would be those of zero, but they are those of `n / 10`
        have hzero : Nat.toDigits 10 (n / 10) = ['0'] := by
          rw [hes, ih (n / 10) (by omega) hes]
        have hval := Nat.ofDigitChars_ten_toDigits (n := n / 10)
        rw [hzero] at hval
        have hsmall : n / 10 = 0 := by rw [← hval]; rfl
        omega

theorem hasLeadingZero_toDigits (negative : Bool) (n : Nat) :
    hasLeadingZero ⟨negative, Nat.toDigits 10 n, none, none⟩ = false := by
  unfold hasLeadingZero
  split
  · rename_i d ds h
    exact absurd (eq_nil_of_toDigits_eq_cons h) (by simp)
  · rfl

/-! ### Values -/

theorem ofInt?_eq_some {n : Int} (fits : -0x8000000000000000 ≤ n ∧ n < 0x10000000000000000) :
    Number.ofInt? n = some (.integer n fits) := dif_pos fits

/-- A numeral without point and exponent denotes its integer, if that fits. -/
theorem value?_of_integerValue? {n : Numeral} {number : Number} (hzero : n.hasLeadingZero = false)
    (hfraction : n.fraction = none) (hexponent : n.exponent = none)
    (h : n.integerValue? = some number) : n.value? = some number := by
  simp [value?, hzero, hfraction, hexponent, h]

/-- The digits of a natural number denote it. -/
theorem value?_toDigits {n : Nat}
    (fits : -0x8000000000000000 ≤ (n : Int) ∧ (n : Int) < 0x10000000000000000) :
    value? ⟨false, Nat.toDigits 10 n, none, none⟩ = some (.integer n fits) := by
  refine value?_of_integerValue? (hasLeadingZero_toDigits false n) rfl rfl ?_
  rw [integerValue?, Nat.ofDigitChars_ten_toDigits, if_neg Bool.false_ne_true,
    ofInt?_eq_some fits]

/-- The digits of a positive number behind a minus sign denote its negative. -/
theorem value?_neg_toDigits {n : Nat} (hpos : 0 < n)
    (fits : -0x8000000000000000 ≤ -(n : Int) ∧ -(n : Int) < 0x10000000000000000) :
    value? ⟨true, Nat.toDigits 10 n, none, none⟩ = some (.integer (-n) fits) := by
  refine value?_of_integerValue? (hasLeadingZero_toDigits true n) rfl rfl ?_
  rw [integerValue?, Nat.ofDigitChars_ten_toDigits, if_pos rfl, if_neg (by omega),
    ofInt?_eq_some fits]

/-! ### Written integers -/

theorem toList_integerText_natCast (n : Nat) : (integerText n).toList = Nat.toDigits 10 n := by
  have hsign : ¬ (n : Int) < 0 := by omega
  rw [integerText, if_neg hsign, Nat.toList_repr, Int.natAbs_natCast]

theorem toList_integerText_neg {n : Nat} (hpos : 0 < n) :
    (integerText (-n)).toList = '-' :: Nat.toDigits 10 n := by
  have hsign : -(n : Int) < 0 := by omega
  rw [integerText, if_pos hsign, String.toList_append, Nat.toList_repr, Int.natAbs_neg,
    Int.natAbs_natCast]
  rfl

theorem scan?_toDigits (n : Nat) {rest : List Char} (hrest : Ends rest) :
    scan? (Nat.toDigits 10 n ++ rest) =
      some (⟨false, Nat.toDigits 10 n, none, none⟩, (Nat.toDigits 10 n).length) := by
  unfold scan?
  split
  · rename_i cs hcs
    -- digits do not start with a minus sign
    obtain ⟨hnil, -⟩ | ⟨ds, hds, -⟩ := List.append_eq_cons_iff.1 hcs
    · exact absurd hnil Nat.toDigits_ne_nil
    · have hdigit : '-'.isDigit = true := isDigit_of_mem_toDigits (n := n) (by simp [hds])
      exact absurd hdigit (by decide)
  · exact scanUnsigned?_append false Nat.toDigits_ne_nil (fun _ => isDigit_of_mem_toDigits) hrest

theorem scan?_neg_toDigits (n : Nat) {rest : List Char} (hrest : Ends rest) :
    scan? ('-' :: Nat.toDigits 10 n ++ rest) =
      some (⟨true, Nat.toDigits 10 n, none, none⟩, (Nat.toDigits 10 n).length + 1) := by
  rw [List.cons_append, scan?, scanUnsigned?_append true Nat.toDigits_ne_nil
    (fun _ => isDigit_of_mem_toDigits) hrest]
  rfl

end Numeral

theorem readNumber?_width_pos {cs : List Char} {n : Number} {width : Nat}
    (h : readNumber? cs = some (n, width)) : 0 < width := by
  unfold readNumber? at h
  split at h
  · simp at h
  · rename_i numeral more hscan
    obtain ⟨number, -, hr⟩ := Option.map_eq_some_iff.1 h
    obtain ⟨-, rfl⟩ := Prod.mk.inj hr
    exact Numeral.scan?_width_pos hscan

theorem readNumber?_width_le {cs : List Char} {n : Number} {width : Nat}
    (h : readNumber? cs = some (n, width)) : width ≤ cs.length := by
  unfold readNumber? at h
  split at h
  · simp at h
  · rename_i numeral more hscan
    obtain ⟨number, -, hr⟩ := Option.map_eq_some_iff.1 h
    obtain ⟨-, rfl⟩ := Prod.mk.inj hr
    exact Numeral.scan?_width_le hscan

/-- A number starts with a digit or a minus sign. -/
theorem head_of_readNumber? {cs : List Char} {r : Number × Nat} (h : readNumber? cs = some r) :
    ∃ c ∈ cs.head?, c = '-' ∨ c.isDigit = true := by
  cases cs with
  | nil => simp [readNumber?, Numeral.scan?, Numeral.scanUnsigned?, Numeral.digits] at h
  | cons c cs =>
    refine ⟨c, rfl, ?_⟩
    by_contra hc
    obtain ⟨hminus, hdigit⟩ := not_or.1 hc
    simp [readNumber?, Numeral.scan?, hminus, Numeral.scanUnsigned?, Numeral.digits, hdigit] at h

theorem readNumber?_eq_none {c : Char} (hminus : c ≠ '-') (hdigit : c.isDigit = false)
    (cs : List Char) : readNumber? (c :: cs) = none := by
  refine Option.eq_none_iff_forall_not_mem.2 fun r hr => ?_
  obtain ⟨d, hd, hstart⟩ := head_of_readNumber? hr
  obtain rfl : c = d := Option.some.inj hd
  simp [hminus, hdigit] at hstart

/-- **Integers are read back**: the text of an integer of at most 64 bits denotes it, wherever
nothing continues the numeral. -/
theorem readNumber?_integerText {n : Int}
    (fits : -0x8000000000000000 ≤ n ∧ n < 0x10000000000000000) {rest : List Char}
    (hrest : Numeral.Ends rest) :
    readNumber? ((integerText n).toList ++ rest) =
      some (.integer n fits, (integerText n).toList.length) := by
  rcases Int.lt_or_le n 0 with hneg | hnonneg
  · obtain ⟨m, rfl⟩ : ∃ m : Nat, n = -m := ⟨n.natAbs, by omega⟩
    have hpos : 0 < m := by omega
    rw [Numeral.toList_integerText_neg hpos, readNumber?, Numeral.scan?_neg_toDigits m hrest]
    simp [Numeral.value?_neg_toDigits hpos fits]
  · obtain ⟨m, rfl⟩ : ∃ m : Nat, n = m := ⟨n.natAbs, by omega⟩
    rw [Numeral.toList_integerText_natCast, readNumber?, Numeral.scan?_toDigits m hrest]
    simp [Numeral.value?_toDigits fits]

end RecordFilter
