import RecordFilter.Proofs.Numeral

/-!
# Spelled numerals

The characters of a numeral with a point or an exponent are read back as that numeral
(`Numeral.scan?_chars`), and it denotes a float that only depends on all of its digits together and on
where the point stands among them, if the digits fit 64 bits (`Numeral.floatValue_eq`).
-/

namespace RecordFilter.Numeral

/-! ### Characters -/

/-- The characters of digits behind a point. -/
def fractionChars : Option (List Char) → List Char
  | none => []
  | some ds => '.' :: ds

/-- The characters of an exponent, with a sign in any case. -/
def exponentChars : Option (Bool × List Char) → List Char
  | none => []
  | some (minus, ds) => 'e' :: (if minus then '-' else '+') :: ds

/-- The characters of a numeral. -/
def chars (n : Numeral) : List Char :=
  (if n.negative then ['-'] else []) ++
    (n.whole ++ (fractionChars n.fraction ++ exponentChars n.exponent))

/-- Some digits and nothing else. -/
def IsDigits (ds : List Char) : Prop := ds ≠ [] ∧ ∀ d ∈ ds, d.isDigit = true

namespace IsDigits

variable {ds : List Char} {k : Nat}

theorem toDigits (n : Nat) : IsDigits (Nat.toDigits 10 n) :=
  ⟨Nat.toDigits_ne_nil, fun _ => isDigit_of_mem_toDigits⟩

theorem length_pos (h : IsDigits ds) : 0 < ds.length := List.length_pos_iff.2 h.1

theorem take (h : IsDigits ds) (hk : 0 < k) : IsDigits (ds.take k) := by
  have hpos := h.length_pos
  refine ⟨?_, fun d hd => h.2 d (List.mem_of_mem_take hd)⟩
  rw [← List.length_pos_iff, List.length_take]
  omega

theorem drop (h : IsDigits ds) (hk : k < ds.length) : IsDigits (ds.drop k) := by
  refine ⟨?_, fun d hd => h.2 d (List.mem_of_mem_drop hd)⟩
  rw [← List.length_pos_iff, List.length_drop]
  omega

/-- Zeros are digits in front of others and behind them. -/
theorem isDigit_of_mem_zeros {d : Char} (hd : d ∈ List.replicate k '0') : d.isDigit = true := by
  rw [List.eq_of_mem_replicate hd]
  rfl

theorem append_zeros (h : IsDigits ds) (k : Nat) : IsDigits (ds ++ List.replicate k '0') :=
  ⟨List.append_ne_nil_of_left_ne_nil h.1 _, fun d hd =>
    (List.mem_append.1 hd).elim (h.2 d) isDigit_of_mem_zeros⟩

theorem zeros_append (h : IsDigits ds) (k : Nat) : IsDigits (List.replicate k '0' ++ ds) :=
  ⟨List.append_ne_nil_of_right_ne_nil _ h.1, fun d hd =>
    (List.mem_append.1 hd).elim isDigit_of_mem_zeros (h.2 d)⟩

theorem isEmpty (h : IsDigits ds) : ds.isEmpty = false := by simpa using h.1

end IsDigits

/-- There are digits in front of the point, and behind it and its exponent if it has one. -/
structure IsSpelled (n : Numeral) : Prop where
  whole : IsDigits n.whole
  fraction : ∀ ds ∈ n.fraction, IsDigits ds
  exponent : ∀ p ∈ n.exponent, IsDigits p.2

/-! ### Scanning -/

variable {n : Numeral} {rest : List Char}

/-- An exponent starts like no digit and like no point, and neither does what ends a numeral. -/
theorem head_exponentChars (hrest : Ends rest) (exponent : Option (Bool × List Char)) :
    ∀ c ∈ (exponentChars exponent ++ rest).head?, c.isDigit = false ∧ c ≠ '.' := by
  cases exponent with
  | none => exact fun c hc => ⟨(hrest c hc).1, (hrest c hc).2.1⟩
  | some p => simp [exponentChars]

theorem head_fractionChars (hrest : Ends rest) (n : Numeral) :
    ∀ c ∈ (fractionChars n.fraction ++ (exponentChars n.exponent ++ rest)).head?,
      c.isDigit = false := by
  cases n.fraction with
  | none => exact fun c hc => (head_exponentChars hrest n.exponent c hc).1
  | some ds => simp [fractionChars]

theorem scanExponent?_chars (h : n.IsSpelled) (hrest : Ends rest) :
    scanExponent? (exponentChars n.exponent ++ rest) =
      n.exponent.map fun p => (p.1, p.2, p.2.length + 2) := by
  cases hexponent : n.exponent with
  | none => exact scanExponent?_eq_none hrest
  | some p =>
    obtain ⟨minus, ds⟩ := p
    have hds : IsDigits ds := h.exponent _ hexponent
    have hdigits := digits_append_of_head hds.2 fun c hc => (hrest c hc).1
    cases minus <;>
      simp [exponentChars, scanExponent?, scanPower?, hdigits, hds.isEmpty, Nat.add_comm]

theorem scanFraction?_chars (h : n.IsSpelled) (hrest : Ends rest) :
    scanFraction? (fractionChars n.fraction ++ (exponentChars n.exponent ++ rest)) =
      n.fraction := by
  have hhead := head_exponentChars hrest n.exponent
  cases hfraction : n.fraction with
  | none =>
    rw [fractionChars, List.nil_append]
    generalize exponentChars n.exponent ++ rest = cs at hhead
    unfold scanFraction?
    split
    · exact absurd rfl (hhead '.' (by simp)).2
    · rfl
  | some ds =>
    have hds : IsDigits ds := h.fraction _ hfraction
    have hdigits := digits_append_of_head hds.2 fun c hc => (hhead c hc).1
    simp [fractionChars, scanFraction?, hdigits, hds.isEmpty]

theorem length_fractionChars (fraction : Option (List Char)) :
    (fractionChars fraction).length = fractionWidth fraction := by
  cases fraction <;> rfl

theorem scanUnsigned?_chars (h : n.IsSpelled) (hrest : Ends rest) :
    scanUnsigned? n.negative (n.whole ++ (fractionChars n.fraction ++
      (exponentChars n.exponent ++ rest))) =
      some (n, (n.whole ++ (fractionChars n.fraction ++ exponentChars n.exponent)).length) := by
  have hwhole := digits_append_of_head h.whole.2 (head_fractionChars hrest n)
  have hfraction := scanFraction?_chars h hrest
  have hexponent := scanExponent?_chars h hrest
  have hdrop : (n.whole ++ (fractionChars n.fraction ++ (exponentChars n.exponent ++ rest))).drop
      (n.whole.length + fractionWidth n.fraction) = exponentChars n.exponent ++ rest := by
    rw [← length_fractionChars, ← List.length_append, ← List.append_assoc, List.drop_left]
  obtain ⟨negative, whole, fraction, exponent⟩ := n
  simp only at hwhole hfraction hexponent hdrop ⊢
  rw [scanUnsigned?]
  simp only [hwhole, h.whole.isEmpty, List.drop_left, hfraction, hdrop, hexponent]
  cases exponent with
  | none => simp [exponentChars, length_fractionChars]
  | some p => simp [exponentChars, length_fractionChars, Nat.add_assoc]

/-- **A spelled numeral is scanned**, wherever nothing continues it. -/
theorem scan?_chars (h : n.IsSpelled) (hrest : Ends rest) :
    scan? (n.chars ++ rest) = some (n, n.chars.length) := by
  have hunsigned := scanUnsigned?_chars h hrest
  rw [chars, List.append_assoc, List.append_assoc, List.append_assoc]
  cases hnegative : n.negative with
  | true =>
    rw [hnegative] at hunsigned
    simp [scan?, hunsigned]
  | false =>
    rw [hnegative] at hunsigned
    obtain ⟨hne, hdigits⟩ := h.whole
    obtain ⟨d, ds, hwhole⟩ := List.exists_cons_of_ne_nil hne
    -- digits do not start with a minus sign
    have hminus : d ≠ '-' := by
      rintro rfl
      exact absurd (hdigits '-' (by simp [hwhole])) (by decide)
    rw [hwhole] at hunsigned ⊢
    simpa [scan?, hminus] using hunsigned

/-! ### Values -/

/-- Digits that fit 64 bits are all gathered. -/
theorem gather_eq {ds : List Char} {significand : Nat}
    (h : Nat.ofDigitChars 10 ds significand < 0x10000000000000000) :
    gather significand ds = (Nat.ofDigitChars 10 ds significand, 0) := by
  induction ds generalizing significand with
  | nil => rfl
  | cons d ds ih =>
    have hvalue : Nat.ofDigitChars 10 (d :: ds) significand =
        Nat.ofDigitChars 10 ds (significand * 10 + (d.toNat - 48)) := by
      rw [Nat.ofDigitChars_cons, Nat.mul_comm]
      rfl
    have hle : significand * 10 + (d.toNat - 48) ≤
        Nat.ofDigitChars 10 ds (significand * 10 + (d.toNat - 48)) := by
      rw [Nat.ofDigitChars_eq_ofDigitChars_zero]
      have hmul := Nat.le_mul_of_pos_left (significand * 10 + (d.toNat - 48))
        (Nat.pow_pos (n := ds.length) (by decide : 0 < 10))
      omega
    rw [hvalue] at h ⊢
    rw [gather]
    simp only [if_pos (hle.trans_lt h)]
    exact ih h

theorem negative_sinkBy {x : Binary64} (h : x.negative = false) (steps : Nat) :
    (sinkBy steps x).negative = false := by
  induction steps generalizing x with
  | zero => exact h
  | succ steps ih =>
    have hquotient : (x / Binary64.powerOfTen 308).negative = (x.negative != false) := rfl
    rw [sinkBy]
    split
    · exact h
    · exact ih (by rw [hquotient, h]; rfl)

/-- A significand is not negative, and scaling it leaves it so. -/
theorem negative_scaled (significand : Nat) (exponent : Int) :
    (scaled significand exponent).negative = false := by
  have hlow := negative_sinkBy (x := Binary64.ofNat significand) rfl
    ((exponent.natAbs - 1) / 308)
  have hquotient (k : Nat) (x : Binary64) :
      (x / Binary64.powerOfTen k).negative = (x.negative != false) := rfl
  unfold scaled
  simp only
  split
  · split
    · rfl
    · split <;> rfl
  · split
    · exact hlow
    · rw [hquotient, hlow]
      rfl

/-- The exponent of a numeral, or zero. -/
def shift (n : Numeral) : Int :=
  match n.exponent with
  | none => 0
  | some (true, ds) => -(Nat.ofDigitChars 10 ds 0 : Int)
  | some (false, ds) => Nat.ofDigitChars 10 ds 0

/-- **The float of a numeral**: its digits in front of and behind the point make up the significand,
if they fit 64 bits, and the point counts as a power of ten. -/
theorem floatValue_eq {significand : Nat}
    (hvalue : Nat.ofDigitChars 10 (n.whole ++ n.fraction.getD []) 0 = significand)
    (hfits : significand < 0x10000000000000000) : n.floatValue =
      ⟨n.negative, (scaled significand (n.shift - (n.fraction.getD []).length)).rank⟩ := by
  rw [Nat.ofDigitChars_append] at hvalue
  have hwhole : Nat.ofDigitChars 10 n.whole 0 ≤ significand := by
    rw [← hvalue, Nat.ofDigitChars_eq_ofDigitChars_zero (l := n.fraction.getD [])]
    exact (Nat.le_mul_of_pos_left _ (Nat.pow_pos (by decide))).trans (Nat.le_add_right _ _)
  have hgather := gather_eq (hwhole.trans_lt hfits)
  have hgather' := gather_eq (hvalue.trans_lt hfits)
  rw [hvalue] at hgather'
  have hplace : n.shift - (n.fraction.getD []).length =
      ((0 : Nat) : Int) - ((n.fraction.getD []).length - 0 : Nat) + n.shift := by omega
  have hsign := negative_scaled significand (n.shift - (n.fraction.getD []).length)
  have hfloat : n.floatValue =
      if n.negative then -scaled significand (n.shift - (n.fraction.getD []).length)
      else scaled significand (n.shift - (n.fraction.getD []).length) := by
    simp only [floatValue, hgather, hgather', hplace]
    rfl
  rw [hfloat]
  generalize scaled significand (n.shift - (n.fraction.getD []).length) = x at hsign
  obtain ⟨negative, rank⟩ := x
  obtain rfl : negative = false := hsign
  cases n.negative <;> rfl

end RecordFilter.Numeral
