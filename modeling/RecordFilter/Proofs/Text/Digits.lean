import RecordFilter.Text.Digits

/-!
# Padded numbers are read back

A number whose digits fit a width takes exactly that width, and reading as many characters gives
it back, whatever follows (`readDigits?_padded`). Numbers below 100 fit two characters, and
numbers below 10000 fit four.
-/

namespace RecordFilter.Text

variable {width n : Nat}

theorem isDigit_of_mem_padded {c : Char} (h : c ∈ padded width n) : c.isDigit = true := by
  rcases List.mem_append.1 h with hzero | hdigit
  · rw [List.eq_of_mem_replicate hzero]
    rfl
  · exact Nat.isDigit_of_mem_toDigits (by decide) (by decide) hdigit

theorem length_padded (h : (Nat.toDigits 10 n).length ≤ width) :
    (padded width n).length = width := by
  rw [padded, List.length_append, List.length_replicate]
  omega

/-- A number that is wide enough has no zeros in front. -/
theorem padded_of_le (h : width ≤ (Nat.toDigits 10 n).length) :
    padded width n = Nat.toDigits 10 n := by
  have hzeros : width - (Nat.toDigits 10 n).length = 0 := by omega
  simp [padded, hzeros]

theorem length_toDigits_le_two (h : n < 100) : (Nat.toDigits 10 n).length ≤ 2 :=
  (Nat.length_toDigits_le_iff (by decide) (by decide)).2 h

theorem length_toDigits_le_four (h : n < 10000) : (Nat.toDigits 10 n).length ≤ 4 :=
  (Nat.length_toDigits_le_iff (by decide) (by decide)).2 h

theorem two_le_length_toDigits (h : 10 ≤ n) : 2 ≤ (Nat.toDigits 10 n).length := by
  have hone : ¬ (Nat.toDigits 10 n).length ≤ 1 := by
    rw [Nat.length_toDigits_le_iff (by decide) (by decide)]
    omega
  omega

/-- Zeros in front change nothing. -/
theorem ofDigitChars_padded : Nat.ofDigitChars 10 (padded width n) 0 = n := by
  rw [padded, Nat.ofDigitChars_append, Nat.ofDigitChars_replicate_zero, Nat.mul_zero,
    Nat.ofDigitChars_ten_toDigits]

theorem readDigits?_padded (h : (Nat.toDigits 10 n).length ≤ width) (rest : List Char) :
    readDigits? width (padded width n ++ rest) = some (n, rest) := by
  have hlength := length_padded h
  have hdigits : (padded width n).all Char.isDigit = true :=
    List.all_eq_true.2 fun _ hc => isDigit_of_mem_padded hc
  rw [readDigits?, List.take_left' hlength, List.drop_left' hlength]
  simp only [hlength, hdigits, and_self, if_true, ofDigitChars_padded]

theorem readDigits?_padded_two {n : Nat} (h : n < 100) (rest : List Char) :
    readDigits? 2 (padded 2 n ++ rest) = some (n, rest) :=
  readDigits?_padded (length_toDigits_le_two h) rest

theorem readDigits?_padded_four {n : Nat} (h : n < 10000) (rest : List Char) :
    readDigits? 4 (padded 4 n ++ rest) = some (n, rest) :=
  readDigits?_padded (length_toDigits_le_four h) rest

/-- Where the first of the characters is no digit, no digits are read. -/
theorem readDigits?_eq_none {c : Char} (hwidth : 0 < width) (hc : c.isDigit = false)
    (rest : List Char) : readDigits? width (c :: rest) = none := by
  obtain ⟨width, rfl⟩ : ∃ w, width = w + 1 := ⟨width - 1, by omega⟩
  simp [readDigits?, hc]

end RecordFilter.Text
