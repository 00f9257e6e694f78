import RecordFilter.Proofs.Token.Spelling

/-!
# Any text may stand in front of a delimiter

What is read of a text does not change when a separator or a closing parenthesis is put behind it
(`Delimits.read?_append`): a quoted text that is closed stays as it is, and nothing of a delimiter
continues a sign, a number or a word. So whatever lexemes a text has by itself, it writes their
tokens (`Lexed.writes`), and texts that were not made by the printers can be put together as those
that were. The other way round, what is behind a written piece has tokens if both have them together
(`Writes.exists_behind`).
-/

namespace RecordFilter.Token

open Numeral

variable {rest : List Char}

/-! ### Numbers -/

theorem Delimits.ne_sign (h : Delimits rest) : ∀ c ∈ rest.head?, c ≠ '-' ∧ c ≠ '+' := by
  intro c hc
  have hall : delimiters.all (fun c => c != '-' && c != '+') = true := by decide
  simpa using List.all_eq_true.1 hall c (h.mem_delimiters hc)

theorem Delimits.digits_append (hrest : Delimits rest) (cs : List Char) :
    digits (cs ++ rest) = digits cs :=
  takeWhile_append_of_head (fun c hc => (hrest.ends c hc).1) cs

theorem Delimits.scanFraction?_append (hrest : Delimits rest) (cs : List Char) :
    scanFraction? (cs ++ rest) = scanFraction? cs := by
  cases cs with
  | nil => exact scanFraction?_eq_none hrest.ends
  | cons c cs =>
    by_cases hpoint : c = '.'
    · subst hpoint
      simp only [List.cons_append, scanFraction?, hrest.digits_append]
    · simp [scanFraction?, hpoint]

theorem Delimits.scanPower?_append (hrest : Delimits rest) (cs : List Char) :
    scanPower? (cs ++ rest) = scanPower? cs := by
  cases cs with
  | nil =>
    cases rest with
    | nil => rfl
    | cons c rest =>
      have hdigits : digits (c :: rest) = digits [] := hrest.digits_append []
      obtain ⟨hminus, hplus⟩ := hrest.ne_sign c (by simp)
      simp [scanPower?, hminus, hplus, hdigits]
  | cons c cs =>
    have hdigits := hrest.digits_append (c :: cs)
    rw [List.cons_append] at hdigits ⊢
    by_cases hminus : c = '-'
    · subst hminus
      simp only [scanPower?, hrest.digits_append]
    by_cases hplus : c = '+'
    · subst hplus
      simp only [scanPower?, hrest.digits_append]
    simp [scanPower?, hminus, hplus, hdigits]

theorem Delimits.scanExponent?_append (hrest : Delimits rest) (cs : List Char) :
    scanExponent? (cs ++ rest) = scanExponent? cs := by
  cases cs with
  | nil => exact scanExponent?_eq_none hrest.ends
  | cons c cs => rw [List.cons_append, scanExponent?, scanExponent?, hrest.scanPower?_append]

theorem Delimits.scanUnsigned?_append (hrest : Delimits rest) (negative : Bool)
    (cs : List Char) : scanUnsigned? negative (cs ++ rest) = scanUnsigned? negative cs := by
  have hwhole := length_digits_le cs
  have hfraction := fractionWidth_le (cs.drop (digits cs).length)
  rw [List.length_drop] at hfraction
  have hwidth : (digits cs).length + fractionWidth (scanFraction? (cs.drop (digits cs).length)) ≤
      cs.length := by omega
  unfold scanUnsigned?
  simp only [hrest.digits_append, List.drop_append_of_le_length hwhole,
    hrest.scanFraction?_append, List.drop_append_of_le_length hwidth, hrest.scanExponent?_append]

theorem Delimits.scan?_append (hrest : Delimits rest) (cs : List Char) :
    scan? (cs ++ rest) = scan? cs := by
  have hunsigned := hrest.scanUnsigned?_append false cs
  cases cs with
  | nil =>
    cases rest with
    | nil => rfl
    | cons c rest =>
      obtain ⟨hminus, -⟩ := hrest.ne_sign c (by simp)
      simpa [scan?, hminus] using hunsigned
  | cons c cs =>
    rw [List.cons_append] at hunsigned ⊢
    by_cases hminus : c = '-'
    · subst hminus
      simp only [scan?, hrest.scanUnsigned?_append]
    · simp [scan?, hminus, hunsigned]

theorem Delimits.readNumber?_append (hrest : Delimits rest) (cs : List Char) :
    readNumber? (cs ++ rest) = readNumber? cs := by
  rw [readNumber?, readNumber?, hrest.scan?_append]

/-! ### Signs and words -/

/-- Behind the first character of a sign, all that counts is whether `=` follows. -/
theorem readSign?_congr (c : Char) {cs cs' : List Char}
    (h : cs.head? = some '=' ↔ cs'.head? = some '=') :
    readSign? (c :: cs) = readSign? (c :: cs') := by
  by_cases hc : c ∈ markers
  · simp only [markers, List.mem_cons, List.not_mem_nil, or_false] at hc
    by_cases hequal : cs.head? = some '='
    · obtain ⟨ds, rfl⟩ := List.head?_eq_some_iff.1 hequal
      obtain ⟨ds', rfl⟩ := List.head?_eq_some_iff.1 (h.1 hequal)
      rcases hc with rfl | rfl | rfl | rfl | rfl | rfl | rfl <;> rfl
    · have hne : ∀ ds, cs ≠ '=' :: ds := by
        rintro ds rfl
        exact hequal rfl
      have hne' : ∀ ds, cs' ≠ '=' :: ds := by
        rintro ds rfl
        exact hequal (h.2 rfl)
      rcases hc with rfl | rfl | rfl | rfl | rfl | rfl | rfl <;> simp [readSign?, hne, hne']
  · simp only [markers, List.mem_cons, List.not_mem_nil, or_false, not_or] at hc
    simp [readSign?, hc]

theorem Delimits.readSign?_append (hrest : Delimits rest) (c : Char) (cs : List Char) :
    readSign? (c :: cs ++ rest) = readSign? (c :: cs) := by
  refine readSign?_congr c ?_
  cases cs with
  | nil =>
    have hequal : rest.head? ≠ some '=' := fun h => absurd (hrest.mem_delimiters h) (by decide)
    simpa using hequal
  | cons d cs => rfl

theorem Delimits.readWord?_append (hrest : Delimits rest) (c : Char) (cs : List Char) :
    readWord? (c :: cs ++ rest) = readWord? (c :: cs) := by
  simp only [List.cons_append, readWord?, takeWhile_append_of_head hrest.isWordPart_eq_false]

/-! ### Tokens -/

/-- A word starts with a character that starts words. -/
theorem isWordStart_of_readWord? {c : Char} {cs : List Char} {r : Token × Nat}
    (h : readWord? (c :: cs) = some r) : isWordStart c = true := by
  rw [readWord?] at h
  split at h
  · assumption
  · simp at h

/-- **What is in front of a delimiter is read as if nothing followed.** -/
theorem Delimits.read?_append (hrest : Delimits rest) {cs : List Char} {r : Token × Nat}
    (h : read? cs = some r) : read? (cs ++ rest) = some r := by
  obtain ⟨t, width⟩ := r
  cases cs with
  | nil => simp [read?_nil] at h
  | cons c cs =>
    rcases read?_cases h with hsign | ⟨content, hquoted, rfl⟩ | ⟨n, hnumber, rfl⟩ | hword
    · simp only [read?, hrest.readSign?_append, hsign]
    · -- only a quote starts a quoted text, and it starts no sign
      obtain rfl : c = '"' := by
        by_contra hc
        simp [Text.readQuoted?, hc] at hquoted
      have hsign : readSign? ('"' :: cs ++ rest) = none := rfl
      simp only [read?, hsign, Text.readQuoted?_append hquoted]
    · exact read?_of_readNumber? ((hrest.readNumber?_append _).trans hnumber)
    · have hstart := isWordStart_of_readWord? hword
      rw [← hword, ← hrest.readWord?_append, List.cons_append, read?_of_isWordStart hstart]

/-- The token in front of a fragment is still there when a delimiter follows the fragment. -/
theorem Delimits.read?_take (hrest : Delimits rest) {cs : List Char} {t : Token} {width : Nat}
    (h : read? cs = some (t, width)) :
    cs ++ rest = cs.take width ++ (cs.drop width ++ rest) ∧
      read? (cs.take width ++ (cs.drop width ++ rest)) = some (t, (cs.take width).length) := by
  have hlength : (cs.take width).length = width := List.length_take_of_le (read?_width_le h)
  have hform : cs ++ rest = cs.take width ++ (cs.drop width ++ rest) := by
    rw [← List.append_assoc, List.take_append_drop]
  refine ⟨hform, ?_⟩
  rw [← hform, hlength, hrest.read?_append h]

/-- **A text with lexemes writes their tokens.** -/
theorem Lexed.writes {offset : Nat} {cs : List Char} {lexemes : List Lexeme}
    (h : Lexed offset cs lexemes) : Writes cs (lexemes.map Lexeme.token) := by
  induction h with
  | nil => exact writes_nil
  | separator hc _ ih =>
    intro rest ts hrest hspells
    exact Spells.separator hc (ih rest ts hrest hspells)
  | token hread _ ih =>
    intro rest ts hrest hspells
    obtain ⟨hform, hfirst⟩ := hrest.read?_take hread
    rw [hform]
    exact Spells.append _ hfirst (ih rest ts hrest hspells)

/-! ### What is left behind a fragment -/

theorem Lexed.exists_behind {offset : Nat} {cs : List Char} {lexemes : List Lexeme}
    (h : Lexed offset cs lexemes) (hrest : Delimits rest) {ts : List Token}
    (hts : Spells (cs ++ rest) ts) :
    ∃ ts', Spells rest ts' ∧ ts = lexemes.map Lexeme.token ++ ts' := by
  induction h generalizing ts with
  | nil => exact ⟨ts, hts, rfl⟩
  | separator hc _ ih => exact ih (hts.of_separator hc)
  | token hread _ ih =>
    obtain ⟨hform, hfirst⟩ := hrest.read?_take hread
    rw [hform] at hts
    obtain ⟨ts', hts', rfl⟩ := hts.of_append hfirst
    obtain ⟨ts'', hts'', rfl⟩ := ih hts'
    exact ⟨ts'', hts'', rfl⟩

/-- **Tokens split at a delimiter**: if a written piece and what follows have tokens together, then
what follows has the rest of them by itself. -/
theorem Writes.exists_behind {cs : List Char} {ts : List Token} (h : Writes cs ts)
    (hrest : Delimits rest) {all : List Token} (hall : Spells (cs ++ rest) all) :
    ∃ ts', Spells rest ts' ∧ all = ts ++ ts' := by
  obtain ⟨lexemes, hl, rfl⟩ := h.spells 0
  exact hl.exists_behind hrest hall

end RecordFilter.Token
