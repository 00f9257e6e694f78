import RecordFilter.Proofs.Token.Fragment

/-!
# How far a token reaches

What a token is depends on its own characters alone, as far as something behind it is taken away and
not put there: a token that is read in front of more text is still read when any part of that text is
missing (`read?_of_append`). Quoted texts close themselves, and all other tokens are made of longest
runs, which do not grow when the text gets shorter. An optional part of a numeral that was not there
does not appear either: it was missing because of the first character that does not belong to it, or
because nothing is left of it.

Numerals also have a last character of their own: whichever optional parts they have, it is a digit
(`Numeral.endsInDigit_scan?`).
-/

namespace RecordFilter

open Numeral

variable {cs rest : List Char}

/-- A run that ends among the first elements does not need those behind. -/
theorem takeWhile_of_append {α : Type} {p : α → Bool} {as rest : List α}
    (h : ((as ++ rest).takeWhile p).length ≤ as.length) :
    as.takeWhile p = (as ++ rest).takeWhile p := by
  rw [List.takeWhile_append] at h ⊢
  split at h
  · rename_i hall
    have hrest : rest.takeWhile p = [] := by
      rw [List.length_append] at h
      exact List.length_eq_zero_iff.1 (by omega)
    rw [if_pos hall, hrest, List.append_nil]
    exact (List.takeWhile_prefix p).eq_of_length hall
  · rename_i hall
    rw [if_neg hall]

/-! ### Numerals -/

namespace Numeral

theorem digits_of_append (h : (digits (cs ++ rest)).length ≤ cs.length) :
    digits cs = digits (cs ++ rest) := takeWhile_of_append h

theorem scanFraction?_of_append
    (h : fractionWidth (scanFraction? (cs ++ rest)) ≤ cs.length) :
    scanFraction? cs = scanFraction? (cs ++ rest) := by
  cases cs with
  | nil =>
    rw [List.nil_append] at h ⊢
    cases hfraction : scanFraction? rest with
    | none => rfl
    | some ds => simp [hfraction, fractionWidth] at h
  | cons c cs =>
    by_cases hpoint : c = '.'
    · subst hpoint
      have hdigits : digits cs = digits (cs ++ rest) := by
        apply digits_of_append
        by_cases hempty : (digits (cs ++ rest)).isEmpty
        · simp [List.isEmpty_iff.1 hempty]
        · simpa [scanFraction?, hempty, fractionWidth] using h
      simp only [List.cons_append, scanFraction?, hdigits]
    · simp [scanFraction?, hpoint]

/-- The exponent that the digits at the front are, behind its mark and its sign. -/
def powerOf (negative : Bool) (width : Nat) (cs : List Char) : Option (Bool × List Char × Nat) :=
  if (digits cs).isEmpty then none else some (negative, digits cs, width + (digits cs).length)

theorem scanPower?_cons (c : Char) (cs : List Char) :
    scanPower? (c :: cs) =
      if c = '-' then powerOf true 2 cs
      else if c = '+' then powerOf false 2 cs
      else powerOf false 1 (c :: cs) := by
  by_cases hminus : c = '-'
  · subst hminus
    rfl
  · by_cases hplus : c = '+'
    · subst hplus
      rfl
    · simp [scanPower?, powerOf, hminus, hplus]

theorem powerOf_of_append {negative : Bool} {width : Nat}
    (h : ∀ r ∈ powerOf negative width (cs ++ rest), r.2.2 ≤ cs.length + width) :
    powerOf negative width cs = powerOf negative width (cs ++ rest) := by
  have hdigits : digits cs = digits (cs ++ rest) := by
    apply digits_of_append
    by_cases hempty : (digits (cs ++ rest)).isEmpty
    · simp [List.isEmpty_iff.1 hempty]
    · simp [powerOf, hempty] at h
      omega
  rw [powerOf, powerOf, hdigits]

theorem powerOf_width_lt {negative : Bool} {width : Nat} {r : Bool × List Char × Nat}
    (h : powerOf negative width cs = some r) : width < r.2.2 := by
  unfold powerOf at h
  split at h
  · simp at h
  · rename_i hdigits
    have hpos : 0 < (digits cs).length := List.length_pos_iff.2 (by simpa using hdigits)
    obtain rfl := Option.some.inj h
    exact Nat.lt_add_of_pos_right hpos

/-- An exponent has a digit behind its mark. -/
theorem scanPower?_width_lt {r : Bool × List Char × Nat} (h : scanPower? cs = some r) :
    1 < r.2.2 := by
  cases cs with
  | nil => simp [scanPower?, digits] at h
  | cons c cs =>
    rw [scanPower?_cons] at h
    split_ifs at h
    · exact (powerOf_width_lt h).trans' (by decide)
    · exact (powerOf_width_lt h).trans' (by decide)
    · exact powerOf_width_lt h

theorem scanPower?_of_append (h : ∀ r ∈ scanPower? (cs ++ rest), r.2.2 ≤ cs.length + 1) :
    scanPower? cs = scanPower? (cs ++ rest) := by
  cases cs with
  | nil =>
    refine (Option.eq_none_iff_forall_not_mem.2 fun r hr => ?_).symm
    exact absurd (h r hr) (Nat.not_le.2 (scanPower?_width_lt hr))
  | cons c cs =>
    rw [List.cons_append, scanPower?_cons] at h ⊢
    rw [scanPower?_cons]
    split_ifs at h ⊢
    · exact powerOf_of_append h
    · exact powerOf_of_append h
    · exact powerOf_of_append h

/-- An exponent stands behind its mark. -/
theorem exists_of_scanExponent? {r : Bool × List Char × Nat} (h : scanExponent? cs = some r) :
    ∃ mark ds, cs = mark :: ds ∧ scanPower? ds = some r := by
  unfold scanExponent? at h
  split at h
  · split_ifs at h
    exact ⟨_, _, rfl, h⟩
  · simp at h

theorem scanExponent?_of_append (h : ∀ r ∈ scanExponent? (cs ++ rest), r.2.2 ≤ cs.length) :
    scanExponent? cs = scanExponent? (cs ++ rest) := by
  cases cs with
  | nil =>
    refine (Option.eq_none_iff_forall_not_mem.2 fun r hr => ?_).symm
    obtain ⟨mark, ds, -, hpower⟩ := exists_of_scanExponent? hr
    have hlt := scanPower?_width_lt hpower
    have hle : r.2.2 ≤ 0 := h r hr
    omega
  | cons c cs =>
    rw [List.cons_append, scanExponent?] at h ⊢
    rw [scanExponent?]
    split_ifs at h ⊢
    · exact scanPower?_of_append h
    · rfl

/-- The number of characters that the digits at the front take, with a point and the digits behind
it. -/
def plainWidth (cs : List Char) : Nat :=
  (digits cs).length + fractionWidth (scanFraction? (cs.drop (digits cs).length))

/-- The parts of a numeral without a sign. -/
theorem scanUnsigned?_eq_some_iff {negative : Bool} {n : Numeral} {width : Nat} :
    scanUnsigned? negative cs = some (n, width) ↔ digits cs ≠ [] ∧
      n = ⟨negative, digits cs, scanFraction? (cs.drop (digits cs).length),
        (scanExponent? (cs.drop (plainWidth cs))).map fun r => (r.1, r.2.1)⟩ ∧
      width = plainWidth cs + (scanExponent? (cs.drop (plainWidth cs))).elim 0 (·.2.2) := by
  rw [eq_comm (a := n), eq_comm (a := width)]
  by_cases hdigits : digits cs = []
  · simp [scanUnsigned?, hdigits]
  · have hwidth : (digits cs).length + fractionWidth (scanFraction? (cs.drop (digits cs).length)) =
        plainWidth cs := rfl
    cases hexponent : scanExponent? (cs.drop (plainWidth cs)) <;>
      simp [scanUnsigned?, hdigits, hwidth, hexponent]

theorem scanUnsigned?_of_append {negative : Bool} {n : Numeral} {width : Nat}
    (h : scanUnsigned? negative (cs ++ rest) = some (n, width)) (hle : width ≤ cs.length) :
    scanUnsigned? negative cs = some (n, width) := by
  obtain ⟨hne, hn, hwidth⟩ := scanUnsigned?_eq_some_iff.1 h
  have hplain : plainWidth (cs ++ rest) ≤ cs.length := by omega
  have hwhole : (digits (cs ++ rest)).length ≤ cs.length := by
    rw [plainWidth] at hplain
    omega
  have hdigits : digits cs = digits (cs ++ rest) := digits_of_append hwhole
  have hfraction : scanFraction? (cs.drop (digits cs).length) =
      scanFraction? ((cs ++ rest).drop (digits (cs ++ rest)).length) := by
    rw [plainWidth, List.drop_append_of_le_length hwhole] at hplain
    rw [hdigits, List.drop_append_of_le_length hwhole]
    apply scanFraction?_of_append
    rw [List.length_drop]
    omega
  have hwidths : plainWidth cs = plainWidth (cs ++ rest) := by
    rw [plainWidth, plainWidth, hfraction, hdigits]
  have hexponent : scanExponent? (cs.drop (plainWidth cs)) =
      scanExponent? ((cs ++ rest).drop (plainWidth (cs ++ rest))) := by
    rw [List.drop_append_of_le_length hplain] at hwidth
    rw [hwidths, List.drop_append_of_le_length hplain]
    apply scanExponent?_of_append
    intro r hr
    rw [Option.mem_def.1 hr, Option.elim_some] at hwidth
    rw [List.length_drop]
    omega
  refine scanUnsigned?_eq_some_iff.2 ⟨hdigits ▸ hne, ?_, ?_⟩
  · rw [hn, hfraction, hexponent, hdigits]
  · rw [hwidth, hexponent, hwidths]

theorem scan?_of_append {n : Numeral} {width : Nat} (h : scan? (cs ++ rest) = some (n, width))
    (hle : width ≤ cs.length) : scan? cs = some (n, width) := by
  cases cs with
  | nil =>
    have hpos := scan?_width_pos h
    rw [List.length_nil] at hle
    omega
  | cons c cs =>
    rw [List.cons_append] at h
    by_cases hminus : c = '-'
    · subst hminus
      obtain ⟨r, hr, hmap⟩ := Option.map_eq_some_iff.1 h
      obtain ⟨rfl, rfl⟩ := Prod.mk.inj hmap
      have hunsigned := scanUnsigned?_of_append hr (Nat.le_of_succ_le_succ hle)
      simp [scan?, hunsigned]
    · have hform (cs : List Char) : scan? (c :: cs) = scanUnsigned? false (c :: cs) := by
        simp [scan?, hminus]
      rw [hform] at h ⊢
      exact scanUnsigned?_of_append h hle

/-! ### Last characters of numerals -/

/-- The characters end with a digit. -/
def EndsInDigit (cs : List Char) : Prop := ∃ d ∈ cs.getLast?, d.isDigit = true

theorem EndsInDigit.behind {ds : List Char} (h : EndsInDigit ds) (front : List Char) :
    EndsInDigit (front ++ ds) := by
  obtain ⟨d, hd, hdigit⟩ := h
  exact ⟨d, by simp [List.getLast?_append, Option.mem_def.1 hd], hdigit⟩

theorem endsInDigit_digits (h : digits cs ≠ []) :
    EndsInDigit (cs.take (digits cs).length) := by
  have htake : digits cs = cs.take (digits cs).length :=
    List.prefix_iff_eq_take.1 (List.takeWhile_prefix _)
  rw [← htake]
  exact ⟨_, List.getLast?_eq_some_getLast h, List.mem_takeWhile_imp (List.getLast_mem h)⟩

theorem endsInDigit_plain (h : digits cs ≠ []) : EndsInDigit (cs.take (plainWidth cs)) := by
  rw [plainWidth, List.take_add]
  cases hfraction : scanFraction? (cs.drop (digits cs).length) with
  | none => simpa [fractionWidth] using endsInDigit_digits h
  | some ds =>
    refine EndsInDigit.behind ?_ _
    unfold scanFraction? at hfraction
    split at hfraction
    · rename_i rest hdrop
      split at hfraction
      · simp at hfraction
      · rename_i hne
        obtain rfl := Option.some.inj hfraction
        rw [hdrop, fractionWidth, List.take_succ_cons]
        exact (endsInDigit_digits (by simpa using hne)).behind ['.']
    · simp at hfraction

theorem endsInDigit_powerOf {negative : Bool} {width : Nat} {r : Bool × List Char × Nat}
    (h : powerOf negative width cs = some r) : EndsInDigit (cs.take (r.2.2 - width)) := by
  unfold powerOf at h
  split at h
  · simp at h
  · rename_i hne
    obtain rfl := Option.some.inj h
    rw [Nat.add_sub_cancel_left]
    exact endsInDigit_digits (by simpa using hne)

theorem endsInDigit_exponent {r : Bool × List Char × Nat} (h : scanExponent? cs = some r) :
    EndsInDigit (cs.take r.2.2) := by
  obtain ⟨mark, ds, rfl, hpower⟩ := exists_of_scanExponent? h
  have hlt := scanPower?_width_lt hpower
  cases ds with
  | nil => simp [scanPower?, digits] at hpower
  | cons c ds =>
    rw [scanPower?_cons] at hpower
    have hwidth : r.2.2 = r.2.2 - 2 + 2 := by omega
    split_ifs at hpower
    · rw [hwidth, List.take_succ_cons, List.take_succ_cons]
      exact (endsInDigit_powerOf hpower).behind [mark, c]
    · rw [hwidth, List.take_succ_cons, List.take_succ_cons]
      exact (endsInDigit_powerOf hpower).behind [mark, c]
    · have hwidth : r.2.2 = r.2.2 - 1 + 1 := by omega
      rw [hwidth, List.take_succ_cons]
      exact (endsInDigit_powerOf hpower).behind [mark]

/-- The last character of a numeral is a digit. -/
theorem endsInDigit_scan? {n : Numeral} {width : Nat} (h : scan? cs = some (n, width)) :
    EndsInDigit (cs.take width) := by
  have hunsigned {negative : Bool} {cs : List Char} {n : Numeral} {width : Nat}
      (h : scanUnsigned? negative cs = some (n, width)) : EndsInDigit (cs.take width) := by
    obtain ⟨hne, -, rfl⟩ := scanUnsigned?_eq_some_iff.1 h
    rw [List.take_add]
    cases hexponent : scanExponent? (cs.drop (plainWidth cs)) with
    | none => simpa using endsInDigit_plain hne
    | some r => exact (endsInDigit_exponent hexponent).behind _
  unfold scan? at h
  split at h
  · obtain ⟨r, hr, hmap⟩ := Option.map_eq_some_iff.1 h
    obtain ⟨rfl, rfl⟩ := Prod.mk.inj hmap
    exact (hunsigned hr).behind ['-']
  · exact hunsigned h

end Numeral

theorem readNumber?_of_append {n : Number} {width : Nat}
    (h : readNumber? (cs ++ rest) = some (n, width)) (hle : width ≤ cs.length) :
    readNumber? cs = some (n, width) := by
  unfold readNumber? at h
  split at h
  · simp at h
  · rename_i numeral more hscan
    obtain ⟨number, hvalue, hr⟩ := Option.map_eq_some_iff.1 h
    obtain ⟨rfl, rfl⟩ := Prod.mk.inj hr
    simp [readNumber?, scan?_of_append hscan hle, hvalue]

/-! ### Signs, words and tokens -/

namespace Token

theorem readSign?_of_append {t : Token} {width : Nat}
    (h : readSign? (cs ++ rest) = some (t, width)) (hle : width ≤ cs.length) :
    readSign? cs = some (t, width) := by
  cases cs with
  | nil =>
    have hpos := readSign?_width_pos h
    rw [List.length_nil] at hle
    omega
  | cons c cs =>
    cases cs with
    | cons d cs =>
      have hsame : readSign? (c :: d :: cs ++ rest) = readSign? (c :: d :: cs) :=
        readSign?_congr c Iff.rfl
      rwa [hsame] at h
    | nil =>
      -- a sign that `=` would have made longer is not followed by it
      unfold readSign? at h
      split at h <;> simp_all [readSign?] <;> omega

theorem readWord?_of_append {t : Token} {width : Nat}
    (h : readWord? (cs ++ rest) = some (t, width)) (hle : width ≤ cs.length) :
    readWord? cs = some (t, width) := by
  cases cs with
  | nil =>
    have hpos := readWord?_width_pos h
    rw [List.length_nil] at hle
    omega
  | cons c cs =>
    rw [List.cons_append, readWord?] at h
    split at h
    · rename_i hstart
      obtain ⟨rfl, rfl⟩ := Prod.mk.inj (Option.some.inj h)
      have hpart := takeWhile_of_append (Nat.le_of_succ_le_succ hle)
      simp [readWord?, hstart, hpart]
    · simp at h

/-- **A token does not need what follows it.** -/
theorem read?_of_append {t : Token} {width : Nat} (h : read? (cs ++ rest) = some (t, width))
    (hle : width ≤ cs.length) : read? cs = some (t, width) := by
  cases cs with
  | nil =>
    have hpos := read?_width_pos h
    rw [List.length_nil] at hle
    omega
  | cons c cs =>
    rcases read?_cases h with hsign | ⟨content, hquoted, rfl⟩ | ⟨n, hnumber, rfl⟩ | hword
    · simp only [read?, readSign?_of_append hsign hle]
    · -- only a quote starts a quoted text, and it starts no sign
      obtain rfl : c = '"' := by
        by_contra hc
        simp [Text.readQuoted?, hc] at hquoted
      have hsign : readSign? ('"' :: cs) = none := rfl
      simp only [read?, hsign, Text.readQuoted?_of_append hquoted hle]
    · exact read?_of_readNumber? (readNumber?_of_append hnumber hle)
    · have hstart := isWordStart_of_readWord? hword
      rw [read?_of_isWordStart hstart, readWord?_of_append hword hle]

end Token

end RecordFilter
