import RecordFilter.Proofs.Token.Spelling

/-!
# Quoted text cannot be broken out of

Whatever a text holds, the lexer takes its written form as one string token and goes on right
behind it (`lexFrom_quote`). And whatever stands at a quote, the lexer takes the one string
literal that starts there, or fails (`read?_quote`): a string literal is never the beginning of a
longer one (`IsStringLiteral.eq_of_prefix`).
-/

namespace RecordFilter

namespace Text

/-- Of all the prefixes of a text, one at most is a string literal, and it stands for one text. -/
theorem IsStringLiteral.eq_of_prefix {cs raw raw' content content' : List Char}
    (h : IsStringLiteral raw content) (h' : IsStringLiteral raw' content') (hraw : raw <+: cs)
    (hraw' : raw' <+: cs) : raw = raw' ∧ content = content' := by
  obtain ⟨rest, rfl⟩ := hraw
  obtain ⟨rest', hsplit⟩ := hraw'
  have hread := readQuoted?_eq_some_iff.2 ⟨raw, rest, rfl, rfl, h⟩
  have hread' := readQuoted?_eq_some_iff.2 ⟨raw', rest', hsplit.symm, rfl, h'⟩
  obtain ⟨hcontent, hlength⟩ := Prod.mk.inj (Option.some.inj (hread.symm.trans hread'))
  exact ⟨(List.append_inj hsplit hlength.symm).1.symm, hcontent⟩

/-- A text without a string literal at the front is not read. -/
theorem readQuoted?_eq_none_iff {cs : List Char} :
    readQuoted? cs = none ↔ ∀ raw content, raw <+: cs → ¬IsStringLiteral raw content := by
  rw [Option.eq_none_iff_forall_ne_some]
  constructor
  · rintro h raw content ⟨rest, rfl⟩ hliteral
    exact h _ (readQuoted?_eq_some_iff.2 ⟨raw, rest, rfl, rfl, hliteral⟩)
  · rintro h ⟨content, width⟩ hread
    obtain ⟨raw, rest, rfl, -, hliteral⟩ := readQuoted?_eq_some_iff.1 hread
    exact h raw content (List.prefix_append raw rest) hliteral

end Text

namespace Token

/-- At a quote, the lexer reads quoted text and nothing else. -/
theorem read?_quote (rest : List Char) :
    read? ('"' :: rest) =
      (Text.readQuoted? ('"' :: rest)).map fun r => (.string (String.ofList r.1), r.2) := by
  have hsign : readSign? ('"' :: rest) = none := rfl
  have hstart : isWordStart '"' = false := by decide +kernel
  have hword : readWord? ('"' :: rest) = none := by simp [readWord?, hstart]
  have hnumber : readNumber? ('"' :: rest) = none := readNumber?_marker (by decide) rest
  cases hquoted : Text.readQuoted? ('"' :: rest) with
  | none => simp only [read?, hsign, hquoted, hnumber, hword, Option.map_none]
  | some r => simp only [read?, hsign, hquoted, Option.map_some]

/-- The lexer takes a written text whole, and goes on behind it. -/
theorem lexFrom_quote (s : String) (found : List Lexeme) (offset : Nat) (rest : List Char) :
    lexFrom found offset 0 ((Text.quote s).toList ++ rest) =
      lexFrom (⟨.string s, offset, offset + byteSize (Text.quote s).toList⟩ :: found)
        (offset + byteSize (Text.quote s).toList) 0 rest := by
  rw [lexFrom_token (read?_text_quote s rest), List.take_left, List.drop_left]

/-- The lexer fails at a quote with no string literal. -/
theorem lexFrom_eq_error {rest : List Char}
    (h : ∀ raw content, raw <+: '"' :: rest → ¬Text.IsStringLiteral raw content)
    (found : List Lexeme) (offset : Nat) :
    lexFrom found offset 0 ('"' :: rest) = .error (offset, .invalidString) := by
  rw [lexFrom, if_neg (by decide), read?_quote, Text.readQuoted?_eq_none_iff.2 h]
  rfl

/-- **Quoted text cannot be broken out of.** Every text in its written form, be it the name of a
field or a literal, is one string token with anything behind it, and the lexer goes on right
there. Where text is read in two scans, which comes to the same as reading it in one, what is
taken is the only prefix that is a string literal, and its content is what the token holds. At a
quote that starts no string literal, reading fails and so does the lexer. -/
theorem quotations_close_themselves :
    (∀ (s : String), ∀ written ∈ [Text.quote s, (Literal.string s).text, (Literal.date s).text],
      ∀ (found : List Lexeme) (offset : Nat) (rest : List Char),
        read? (written.toList ++ rest) = some (.string s, written.toList.length) ∧
        lexFrom found offset 0 (written.toList ++ rest) =
          lexFrom (⟨.string s, offset, offset + byteSize written.toList⟩ :: found)
            (offset + byteSize written.toList) 0 rest) ∧
    (∀ cs : List Char, Text.readDelimited? cs = Text.readQuoted? cs) ∧
    (∀ rest : List Char,
      read? ('"' :: rest) = (Text.readDelimited? ('"' :: rest)).map fun r =>
        (.string (String.ofList r.1), r.2)) ∧
    (∀ (cs content : List Char) (width : Nat),
      Text.readDelimited? cs = some (content, width) ↔
        width ≤ cs.length ∧ Text.IsStringLiteral (cs.take width) content ∧
        ∀ raw content', raw <+: cs → Text.IsStringLiteral raw content' →
          raw = cs.take width ∧ content' = content) ∧
    ∀ rest : List Char,
      (∀ raw content, raw <+: '"' :: rest → ¬Text.IsStringLiteral raw content) →
      Text.readDelimited? ('"' :: rest) = none ∧ read? ('"' :: rest) = none ∧
        ∀ (found : List Lexeme) (offset : Nat),
          lexFrom found offset 0 ('"' :: rest) = .error (offset, .invalidString) := by
  refine ⟨fun s written hwritten found offset rest => ?_, Text.readDelimited?_eq,
    fun rest => ?_, fun cs content width => ?_, fun rest h => ?_⟩
  · obtain rfl : written = Text.quote s := by simpa [Literal.text] using hwritten
    exact ⟨read?_text_quote s rest, lexFrom_quote s found offset rest⟩
  · rw [Text.readDelimited?_eq, read?_quote]
  · rw [Text.readDelimited?_eq, Text.readQuoted?_eq_some_iff]
    constructor
    · rintro ⟨raw, rest, rfl, rfl, hliteral⟩
      rw [List.take_left]
      refine ⟨by simp, hliteral, fun raw' content' hraw' hliteral' => ?_⟩
      exact hliteral'.eq_of_prefix hliteral hraw' (List.prefix_append raw rest)
    · rintro ⟨hle, hliteral, -⟩
      exact ⟨cs.take width, cs.drop width, (List.take_append_drop width cs).symm,
        List.length_take_of_le hle, hliteral⟩
  · have hnone := Text.readQuoted?_eq_none_iff.2 h
    refine ⟨(Text.readDelimited?_eq _).trans hnone, ?_, lexFrom_eq_error h⟩
    rw [read?_quote, hnone, Option.map_none]

/-- An unpaired surrogate is no string literal, with the end of a text behind it or anything else.
-/
theorem quotations_close_themselves_surrogate :
    (∀ raw content, raw <+: "\"\\ud83d\" or \"".toList → ¬Text.IsStringLiteral raw content) ∧
      lexFrom [] 0 0 "\"\\ud83d\" or \"".toList = .error (0, .invalidString) :=
  have hnone : ∀ raw content, raw <+: "\"\\ud83d\" or \"".toList →
      ¬Text.IsStringLiteral raw content := Text.readQuoted?_eq_none_iff.1 (by decide +kernel)
  ⟨hnone, (quotations_close_themselves.2.2.2.2 _ hnone).2.2 [] 0⟩

end Token

end RecordFilter
