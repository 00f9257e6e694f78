import RecordFilter.Proofs.Token.Spelling

/-!
# Blank text has no lexemes

No token starts with white space of any kind (`read?_of_isBlank`), so a text of nothing else has no
lexemes if it has any reading at all: the lexer passes over four of the blank characters and refuses
the others.
-/

namespace RecordFilter.Token

/-- The code points of blank characters, one by one. -/
def blankCodes : List Nat := Text.blankRanges.flatMap fun r => List.range' r.1 (r.2 + 1 - r.1)

theorem mem_blankCodes {c : Char} (h : Text.isBlank c = true) : c.toNat ∈ blankCodes := by
  obtain ⟨r, hr, hle⟩ := List.any_eq_true.1 h
  obtain ⟨hlow, hhigh⟩ : r.1 ≤ c.toNat ∧ c.toNat ≤ r.2 := by simpa using hle
  exact List.mem_flatMap.2 ⟨r, hr, List.mem_range'_1.2 ⟨hlow, by omega⟩⟩

/-- No token starts with a blank character. -/
theorem read?_of_isBlank {c : Char} (h : Text.isBlank c = true) (cs : List Char) :
    read? (c :: cs) = none := by
  have hall : blankCodes.all (fun n =>
      !markers.contains (Char.ofNat n) && (Char.ofNat n != '-' &&
        (!(Char.ofNat n).isDigit && !isWordStart (Char.ofNat n)))) = true := by decide +kernel
  have hc := List.all_eq_true.1 hall _ (mem_blankCodes h)
  rw [Char.ofNat_toNat] at hc
  obtain ⟨hmarker, hminus, hdigit, hword⟩ :
      c ∉ markers ∧ c ≠ '-' ∧ c.isDigit = false ∧ isWordStart c = false := by simpa using hc
  rw [read?_of_not_marker hmarker, readNumber?_eq_none hminus hdigit]
  simp [readWord?, hword]

theorem Lexed.eq_nil_of_isBlank {offset : Nat} {cs : List Char} {lexemes : List Lexeme}
    (h : Lexed offset cs lexemes) (hblank : ∀ c ∈ cs, Text.isBlank c = true) : lexemes = [] := by
  induction h with
  | nil => rfl
  | separator _ _ ih => exact ih fun c hc => hblank c (List.mem_cons_of_mem _ hc)
  | @token _ width cs t _ hr _ _ =>
    cases cs with
    | nil => simp [read?_nil] at hr
    | cons c cs => simp [read?_of_isBlank (hblank c List.mem_cons_self)] at hr

/-- The lexemes of a blank text, if it has any reading. -/
theorem eq_nil_of_isAllBlank {text : String} {lexemes : List Lexeme}
    (h : tokenize text = .ok lexemes) (hblank : Text.isAllBlank text = true) : lexemes = [] :=
  (tokenize_eq_ok_iff.1 h).eq_nil_of_isBlank (List.all_eq_true.1 hblank)

end RecordFilter.Token
