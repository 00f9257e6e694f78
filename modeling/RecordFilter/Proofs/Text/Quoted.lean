import RecordFilter.Proofs.Text.StringLiteral

/-!
# Reading quoted text back

`readQuoted?_quoteChars`: the written form of any text, with anything behind it, is read as that
text and nothing of what is behind it is taken. The written form is a string literal
(`isStringLiteral_quoteChars`), so no condition on the rest is needed: a quote or a backslash
inside the text never ends it early. Any other string literal closes itself as well: it ends with
its closing quote, and neither more nor less behind that changes how it is read
(`exists_of_readQuoted?`).

The end of a string literal can also be found without decoding it (`closing?`): it is the first
quote that no backslash takes along. Decoding what is in front of this quote afterwards comes to
the same (`readDelimited?_eq`).
-/

namespace RecordFilter.Text

variable {cs content rest : List Char} {width : Nat}

/-! ### Escapes -/

/-- The digits that are written for a value denote it. -/
theorem isHexDigit_hexDigit {n : Nat} (h : n < 16) : IsHexDigit (hexDigit n) n := by
  have hall : ∀ n < 16, "0123456789abcdef".toList[n]? = some (hexDigit n) := by decide
  exact .inl (hall n h)

/-- The short escapes are among the escape letters. -/
theorem mem_escapeLetters {c letter : Char} (h : escapeLetter? c = some letter) :
    (letter, c) ∈ escapeLetters := by
  unfold escapeLetter? at h
  split at h <;> simp at h <;> subst h <;> decide

/-- A character without a short escape neither closes a quoted text nor starts an escape. -/
theorem ne_of_escapeLetter?_eq_none {c : Char} (h : escapeLetter? c = none) :
    c ≠ '"' ∧ c ≠ '\\' := by
  constructor <;> rintro rfl <;> simp [escapeLetter?] at h

/-- The written form of a character is a piece that stands for it. -/
theorem piece_escape (c : Char) : Piece (escape c) c := by
  cases hc : escapeLetter? c with
  | some letter =>
    have hform : escape c = ['\\', letter] := by simp [escape, hc]
    rw [hform]
    exact .letter (mem_escapeLetters hc)
  | none =>
    obtain ⟨hquote, hslash⟩ := ne_of_escapeLetter?_eq_none hc
    by_cases hctrl : c.toNat < 32
    · have hform : escape c =
          ['\\', 'u', '0', '0', hexDigit (c.toNat / 16), hexDigit (c.toNat % 16)] := by
        simp [escape, hc, hctrl]
      have hzero : IsHexDigit '0' 0 := .inl rfl
      rw [hform]
      exact .unit ⟨0, 0, _, _, hzero, hzero, isHexDigit_hexDigit (by omega),
        isHexDigit_hexDigit (by omega), by omega⟩
    · have hform : escape c = [c] := by simp [escape, hc, hctrl]
      rw [hform]
      exact .itself (Nat.not_lt.1 hctrl) hquote hslash

/-! ### Whole texts -/

theorem content_flatMap_escape (cs : List Char) : Content (cs.flatMap escape) cs := by
  induction cs with
  | nil => exact .nil
  | cons c cs ih => exact .cons (piece_escape c) ih

/-- **Written texts are string literals.** -/
theorem isStringLiteral_quoteChars (cs : List Char) : IsStringLiteral (quoteChars cs) cs :=
  ⟨_, rfl, content_flatMap_escape cs⟩

/-- **Quoted text closes itself**: what `quoteChars` writes is read back whole, whatever
follows. -/
theorem readQuoted?_quoteChars (cs rest : List Char) :
    readQuoted? (quoteChars cs ++ rest) = some (cs, (quoteChars cs).length) :=
  readQuoted?_eq_some_iff.2 ⟨_, rest, rfl, rfl, isStringLiteral_quoteChars cs⟩

/-! ### What stands behind -/

/-- A quoted text that is read ends with its closing quote, and is read so whatever follows. -/
theorem exists_of_readQuoted? (h : readQuoted? cs = some (content, width)) :
    ∃ body behind, cs = '"' :: (body ++ '"' :: behind) ∧ width = body.length + 2 ∧
      ∀ rest, readQuoted? ('"' :: (body ++ '"' :: rest)) = some (content, width) := by
  obtain ⟨_, behind, rfl, rfl, hliteral⟩ := readQuoted?_eq_some_iff.1 h
  obtain ⟨body, rfl, -⟩ := id hliteral
  refine ⟨body, behind, by simp, by simp, fun rest => ?_⟩
  exact readQuoted?_eq_some_iff.2 ⟨_, rest, by simp, rfl, hliteral⟩

/-- A quoted text that is read takes its opening quote at least. -/
theorem readQuoted?_width_pos (h : readQuoted? cs = some (content, width)) : 0 < width := by
  obtain ⟨body, -, -, rfl, -⟩ := exists_of_readQuoted? h
  omega

/-- A quoted text takes no more characters than there are. -/
theorem readQuoted?_width_le (h : readQuoted? cs = some (content, width)) : width ≤ cs.length := by
  obtain ⟨raw, rest, rfl, rfl, -⟩ := readQuoted?_eq_some_iff.1 h
  simp

/-- More may follow a quoted text that is read. -/
theorem readQuoted?_append (h : readQuoted? cs = some (content, width)) (rest : List Char) :
    readQuoted? (cs ++ rest) = some (content, width) := by
  obtain ⟨raw, behind, rfl, hwidth, hliteral⟩ := readQuoted?_eq_some_iff.1 h
  exact readQuoted?_eq_some_iff.2 ⟨raw, behind ++ rest, by simp, hwidth, hliteral⟩

/-- Less may follow a quoted text that is read, as long as none of its own characters is missing. -/
theorem readQuoted?_of_append (h : readQuoted? (cs ++ rest) = some (content, width))
    (hle : width ≤ cs.length) : readQuoted? cs = some (content, width) := by
  obtain ⟨raw, behind, hsplit, rfl, hliteral⟩ := readQuoted?_eq_some_iff.1 h
  obtain ⟨more, rfl⟩ :=
    List.prefix_of_prefix_length_le ⟨behind, hsplit.symm⟩ (List.prefix_append cs rest) hle
  exact readQuoted?_eq_some_iff.2 ⟨raw, more, rfl, rfl, hliteral⟩

/-! ### Two scans -/

/-- The number of characters up to and with the first quote that no backslash takes along. A
backslash takes along the character behind it, whatever it is. -/
def closing? : List Char → Option Nat
  | [] => none
  | '"' :: _ => some 1
  | ['\\'] => none
  | '\\' :: _ :: rest => (closing? rest).map (· + 2)
  | _ :: rest => (closing? rest).map (· + 1)

/-- Reads quoted text in two scans: the first one looks for its end, and the second one decodes
all of what is in front of that. -/
def readDelimited? (cs : List Char) : Option (List Char × Nat) :=
  match cs with
  | '"' :: rest =>
    (closing? rest).bind fun width =>
      (readQuoted? (cs.take (width + 1))).filter fun r => r.2 = width + 1
  | _ => none

/-- A character that is neither a quote nor a backslash is passed over. -/
theorem closing?_cons {c : Char} (h : c ≠ '"' ∧ c ≠ '\\') (rest : List Char) :
    closing? (c :: rest) = (closing? rest).map (· + 1) :=
  closing?.eq_5 c rest h.1 (fun hslash _ => h.2 hslash) fun _ _ hslash _ => h.2 hslash

/-- The digits of a unit are passed over. -/
theorem closing?_unit {a b c d : Char} {unit : Nat} (h : IsUnit a b c d unit)
    (rest : List Char) :
    closing? ('\\' :: 'u' :: a :: b :: c :: d :: rest) = (closing? rest).map (· + 6) := by
  obtain ⟨p, q, r, s, ha, hb, hc, hd, -⟩ := h
  rw [closing?.eq_4, closing?_cons (ne_of_isHexDigit ha), closing?_cons (ne_of_isHexDigit hb),
    closing?_cons (ne_of_isHexDigit hc), closing?_cons (ne_of_isHexDigit hd)]
  simp [Function.comp_def]

/-- No quote inside a piece is the closing one. -/
theorem closing?_piece {piece : List Char} {c : Char} (h : Piece piece c) (rest : List Char) :
    closing? (piece ++ rest) = (closing? rest).map (· + piece.length) := by
  cases h with
  | itself _ hquote hslash => exact closing?_cons ⟨hquote, hslash⟩ rest
  | letter => simp [closing?]
  | unit hunit => exact closing?_unit hunit rest
  | pair hhigh hlow =>
    simp only [List.cons_append, List.nil_append]
    rw [closing?_unit hhigh, closing?_unit hlow]
    simp [Function.comp_def]

/-- The first quote behind content closes it. -/
theorem closing?_content {body content : List Char} (h : Content body content)
    (rest : List Char) : closing? (body ++ '"' :: rest) = some (body.length + 1) := by
  induction h with
  | nil => simp [closing?]
  | cons hpiece _ ih =>
    rw [List.append_assoc, closing?_piece hpiece, ih, Option.map_some, List.length_append]
    simp only [Option.some.injEq]
    omega

/-- **The two scans agree** with reading in one go: wherever the first one stops, decoding what is
in front of it succeeds just if the text starts with a string literal, and it finds the same
content. -/
theorem readDelimited?_eq (cs : List Char) : readDelimited? cs = readQuoted? cs := by
  refine Option.ext fun r => ?_
  obtain ⟨content, width⟩ := r
  constructor
  · -- what is decoded stands at the front of the whole text
    intro h
    unfold readDelimited? at h
    split at h
    · obtain ⟨end?, -, hfilter⟩ := Option.bind_eq_some_iff.1 h
      obtain ⟨hread, -⟩ := Option.filter_eq_some_iff.1 hfilter
      rw [← List.take_append_drop (end? + 1) ('"' :: _)]
      exact readQuoted?_append hread _
    · simp at h
  · intro h
    obtain ⟨_, behind, rfl, rfl, body, rfl, hbody⟩ := readQuoted?_eq_some_iff.1 h
    rw [List.cons_append, List.append_assoc, List.singleton_append] at h ⊢
    have hclosing := closing?_content hbody behind
    have htake : ('"' :: (body ++ '"' :: behind)).take (body.length + 1 + 1) =
        '"' :: (body ++ ['"']) := by simp [List.take_append, List.take_of_length_le]
    have hread : readQuoted? ('"' :: (body ++ ['"'])) = some (content, body.length + 1 + 1) :=
      readQuoted?_eq_some_iff.2 ⟨_, [], by simp, by simp, body, rfl, hbody⟩
    simp only [readDelimited?, hclosing, Option.bind_some, htake, hread]
    simp

end RecordFilter.Text
