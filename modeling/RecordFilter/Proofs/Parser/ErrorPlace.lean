import RecordFilter.Proofs.Parser.Spacing
import RecordFilter.Proofs.Text.Place

/-!
# Places of errors

The offset of an error is where the lexer gets stuck, or where a token starts or the text ends
(`exists_offset_of_parse_error`). All of these are between characters, so the line and the column of
the error denote its offset, and errors come in the order of their lines and columns
(`places_of_errors`).
-/

namespace RecordFilter

open Text (IsBoundary locate offsetOf?)

variable {text : String}

namespace Token

/-- The rest stands behind the characters that were passed, and these have the same lexemes when it
is gone. -/
theorem Passes.exists_front {offset stop : Nat} {cs rest : List Char} {lexemes : List Lexeme}
    (h : Passes offset cs lexemes stop rest) :
    ∃ front, cs = front ++ rest ∧ stop = offset + byteSize front ∧ Lexed offset front lexemes := by
  induction h with
  | here offset cs => exact ⟨[], rfl, rfl, .nil offset⟩
  | @separator _ _ c _ _ _ hc _ ih =>
    obtain ⟨front, rfl, rfl, hlexed⟩ := ih
    exact ⟨c :: front, rfl, by rw [byteSize, Nat.add_assoc], .separator hc hlexed⟩
  | @token offset _ width cs rest t lexemes hread _ ih =>
    obtain ⟨front, hfront, rfl, hlexed⟩ := ih
    have hle := read?_width_le hread
    obtain ⟨slice, hcs, rfl⟩ : ∃ slice, cs = slice ++ (front ++ rest) ∧ slice.length = width :=
      ⟨cs.take width, by rw [← hfront, List.take_append_drop], List.length_take_of_le hle⟩
    subst hcs
    rw [List.take_left] at hlexed ⊢
    refine ⟨slice ++ front, by rw [List.append_assoc], by rw [byteSize_append, Nat.add_assoc], ?_⟩
    -- of what was behind the token, `front` is still there
    rw [← List.append_assoc] at hread
    exact hlexed.append (read?_of_append hread (by simp))

/-- The lexer gets stuck between characters of the text. -/
theorem IsStuckAt.isBoundary {offset : Nat} {c : Char} (h : IsStuckAt text offset c) :
    IsBoundary text offset := by
  obtain ⟨lexemes, rest, hpasses, -, -⟩ := h
  obtain ⟨front, htext, hoffset, -⟩ := hpasses.exists_front
  exact ⟨front, c :: rest, htext, by rw [hoffset, Nat.zero_add]⟩

end Token

namespace Expr

/-- The offset of an error of the lexer or of the parser. -/
theorem exists_offset_of_parse_error {e : SyntaxError} (h : parse text = .error e) :
    ∃ offset, IsBoundary text offset ∧ e = .ofOffset text offset e.fault ∧
      ((∃ c, Token.IsStuckAt text offset c ∧ e.fault = Token.faultAt c) ∨
        ∃ lexemes, Token.tokenize text = .ok lexemes ∧ offset ∈ Token.starts text lexemes) := by
  cases htokens : Token.tokenize text with
  | error e' =>
    obtain rfl : e' = e := by simpa [parse, htokens] using h
    obtain ⟨offset, c, hstuck, rfl⟩ := Token.tokenize_eq_error_iff.1 htokens
    exact ⟨offset, hstuck.isBoundary, rfl, .inl ⟨c, hstuck, rfl⟩⟩
  | ok lexemes =>
    obtain ⟨offset, fault, hrun, rfl⟩ := Grammar.exists_run_error htokens h
    have hoffset := Token.mem_starts_of_run hrun
    have hboundary := Token.isBoundary_of_mem_starts htokens hoffset
    exact ⟨offset, hboundary, rfl, .inr ⟨lexemes, rfl, hoffset⟩⟩

/-- **The places of errors can be trusted.** The offset of an error is that of a place between
characters: where a token starts, where the text ends, or where no token matches first. The line and
the column of the error denote this offset. They tell the places of a text apart, and come in the
order of the offsets. -/
theorem places_of_errors (text : String) :
    (∀ e, parse text = .error e →
      e.place.offset ≤ text.utf8ByteSize ∧ IsBoundary text e.place.offset ∧
      ((∃ c, Token.IsStuckAt text e.place.offset c ∧ e.fault = Token.faultAt c) ∨
        ∃ lexemes, Token.tokenize text = .ok lexemes ∧
          e.place.offset ∈ Token.starts text lexemes) ∧
      offsetOf? text e.place.line e.place.column = some e.place.offset) ∧
    Set.InjOn (fun offset => ((locate text offset).line, (locate text offset).column))
      {offset | IsBoundary text offset} ∧
    StrictMonoOn (fun offset => toLex ((locate text offset).line, (locate text offset).column))
      {offset | IsBoundary text offset} := by
  have hmono := Text.strictMonoOn_lineColumn_locate text
  refine ⟨fun e he => ?_, fun o ho o' ho' heq => ?_, hmono⟩
  · obtain ⟨offset, hboundary, hplace, horigin⟩ := exists_offset_of_parse_error he
    have hlocate : e.place = locate text offset := congrArg SyntaxError.place hplace
    have hoffset : e.place.offset = offset := by rw [hlocate, hboundary.offset_locate]
    rw [hoffset]
    refine ⟨hboundary.le, hboundary, horigin, ?_⟩
    rw [hlocate]
    exact Text.offsetOf?_locate hboundary
  · exact hmono.injOn ho ho' (congrArg toLex heq)

set_option maxRecDepth 2000 in
/-- A question mark, on the line behind one with a letter of two bytes: the lexer gets stuck at the
third column of the second line. The place behind the letter, on the first line, is another one and
comes before it. -/
theorem places_of_errors_second_line : ∃ e,
    parse "\"é\" ==\n1 ?" = .error e ∧ e = ⟨.unexpectedCharacter '?', ⟨10, 2, 3⟩⟩ ∧
    IsBoundary "\"é\" ==\n1 ?" 10 ∧ offsetOf? "\"é\" ==\n1 ?" 2 3 = some 10 ∧
    IsBoundary "\"é\" ==\n1 ?" 3 ∧ (locate "\"é\" ==\n1 ?" 3).column = 3 ∧
    toLex ((locate "\"é\" ==\n1 ?" 3).line, 3) < toLex ((locate "\"é\" ==\n1 ?" 10).line, 3) := by
  have herror : parse "\"é\" ==\n1 ?" = .error ⟨.unexpectedCharacter '?', ⟨10, 2, 3⟩⟩ := rfl
  obtain ⟨hplaces, -, hmono⟩ := places_of_errors "\"é\" ==\n1 ?"
  obtain ⟨-, hboundary, -, hoffset⟩ := hplaces _ herror
  have hletter : IsBoundary "\"é\" ==\n1 ?" 3 :=
    ⟨['"', 'é'], ['"', ' ', '=', '=', '\n', '1', ' ', '?'], rfl, rfl⟩
  exact ⟨_, herror, rfl, hboundary, hoffset, hletter, rfl, hmono hletter hboundary (by decide)⟩

end Expr

end RecordFilter
