import RecordFilter.Proofs.Parser.ErrorPlace

/-!
# Slices of a text

The lexemes of a text account for all of it. They start one behind the other, and the text ends
behind the last of them (`pairwise_starts`). Each stands for a slice of the text and is the only
lexeme of that slice alone, since a token does not need what follows it (`exists_slice`). What is in
no slice is a separator, since the lexer has no other way to get past it
(`Lexed.isSeparator_of_outside`). Where the lexer gets stuck, the part that it has passed has
lexemes of its own (`exists_front_of_error`).
-/

namespace RecordFilter.Token

variable {offset : Nat} {cs before behind : List Char} {lexemes : List Lexeme} {text : String}

/-! ### Order -/

/-- Neither a lexeme nor the end of the characters is in front of the characters. -/
theorem Lexed.le_of_mem_starts (h : Lexed offset cs lexemes) :
    ∀ o ∈ lexemes.map Lexeme.start ++ [offset + byteSize cs], offset ≤ o := by
  intro o ho
  rcases List.mem_append.1 ho with hstart | hend
  · obtain ⟨l, hl, rfl⟩ := List.mem_map.1 hstart
    obtain ⟨front, -, -, hfront⟩ := h.exists_start hl
    exact hfront ▸ Nat.le_add_right _ _
  · exact List.mem_singleton.1 hend ▸ Nat.le_add_right _ _

/-- Lexemes start one behind the other, and the characters end behind the last of them. -/
theorem Lexed.pairwise_starts (h : Lexed offset cs lexemes) :
    (lexemes.map Lexeme.start ++ [offset + byteSize cs]).Pairwise (· < ·) := by
  induction lexemes generalizing offset cs with
  | nil => exact List.pairwise_singleton _ _
  | cons l lexemes ih =>
    obtain ⟨gap, slice, rest, rfl, -, hread, hstart, hstop, hrest⟩ := h.of_cons
    have hpos : 0 < byteSize slice :=
      byteSize_pos (List.ne_nil_of_length_pos (read?_width_pos hread))
    have hend : offset + byteSize (gap ++ (slice ++ rest)) = l.stop + byteSize rest := by
      rw [byteSize_append, byteSize_append, hstop, hstart]
      omega
    rw [List.map_cons, List.cons_append, hend]
    refine List.pairwise_cons.2 ⟨fun o ho => ?_, ih hrest⟩
    calc l.start < l.stop := hstop ▸ Nat.lt_add_of_pos_right hpos
      _ ≤ o := hrest.le_of_mem_starts o ho

/-- The starts of lexemes at the end of a text, and the end of the text. -/
theorem starts_eq (h : offset + byteSize cs = text.utf8ByteSize) (lexemes : List Lexeme) :
    starts text lexemes = lexemes.map Lexeme.start ++ [offset + byteSize cs] := by
  rw [starts, h]

/-- **The lexemes of a text start one behind the other**, and the text ends behind all of them. -/
theorem pairwise_starts (h : tokenize text = .ok lexemes) :
    (starts text lexemes).Pairwise (· < ·) := by
  rw [starts_eq (by rw [Nat.zero_add, byteSize_toList])]
  exact (tokenize_eq_ok_iff.1 h).pairwise_starts

/-! ### Inside and outside of slices -/

/-- A token is the only one of its slice. -/
theorem tokenize_slice {t : Token} {slice rest : List Char}
    (h : read? (slice ++ rest) = some (t, slice.length)) :
    tokenize (String.ofList slice) = .ok [⟨t, 0, byteSize slice⟩] := by
  have hread : read? (slice ++ []) = some (t, slice.length) := by
    rw [List.append_nil]
    exact read?_of_append h (Nat.le_refl _)
  have hlexed := (Lexed.nil (0 + byteSize slice)).append hread
  rw [List.append_nil, Nat.zero_add] at hlexed
  rwa [tokenize_eq_ok_iff, String.toList_ofList]

/-- **Each lexeme stands for a slice** of the text. The slice is not empty, no later lexeme starts
in front of its end, and by itself it has this lexeme and no other. -/
theorem exists_slice {found next : List Lexeme} {l : Lexeme}
    (h : tokenize text = .ok (found ++ l :: next)) :
    ∃ before slice behind, text.toList = before ++ (slice ++ behind) ∧ slice ≠ [] ∧
      byteSize before = l.start ∧ byteSize (before ++ slice) = l.stop ∧
      (∀ o ∈ starts text next, l.stop ≤ o) ∧
      tokenize (String.ofList slice) = .ok [⟨l.token, 0, byteSize slice⟩] := by
  obtain ⟨before, slice, behind, htext, hread, hstart, hstop, hnext⟩ :=
    (tokenize_eq_ok_iff.1 h).exists_slice
  rw [Nat.zero_add] at hstart
  have hslice : byteSize (before ++ slice) = l.stop := by rw [byteSize_append, hstop, hstart]
  have hend : l.stop + byteSize behind = text.utf8ByteSize := by
    rw [← byteSize_toList, htext, ← List.append_assoc, byteSize_append, hslice]
  refine ⟨before, slice, behind, htext, ?_, hstart.symm, hslice, ?_, tokenize_slice hread⟩
  · exact List.ne_nil_of_length_pos (read?_width_pos hread)
  · rw [starts_eq hend]
    exact hnext.le_of_mem_starts

/-- **What is in no slice is a separator.** -/
theorem Lexed.isSeparator_of_outside {c : Char} (h : Lexed offset (before ++ c :: behind) lexemes)
    (hout : ∀ l ∈ lexemes,
      l.stop ≤ offset + byteSize before ∨ offset + byteSize before < l.start) :
    isSeparator c = true := by
  generalize hcs : before ++ c :: behind = cs at h
  induction h generalizing before with
  | nil => simp at hcs
  | @separator offset d cs lexemes hd _ ih =>
    cases before with
    | nil =>
      obtain ⟨rfl, -⟩ := List.cons.inj hcs
      exact hd
    | cons e before =>
      obtain ⟨rfl, htail⟩ := List.cons.inj hcs
      have hplace : offset + byteSize (e :: before) = offset + e.utf8Size + byteSize before := by
        rw [byteSize, Nat.add_assoc]
      rw [hplace] at hout
      exact ih hout htail
  | @token offset width cs t lexemes hread _ ih =>
    subst hcs
    obtain ⟨hfirst, hrest⟩ := List.forall_mem_cons.1 hout
    -- the token does not start behind the character, so it ends in front of it
    have hbefore : byteSize ((before ++ c :: behind).take width) ≤ byteSize before := by
      rcases hfirst with hstop | hstart
      · exact Nat.le_of_add_le_add_left hstop
      · exact absurd hstart (Nat.not_lt.2 (Nat.le_add_right _ _))
    obtain ⟨slice, more, rfl, rfl⟩ := exists_slice_of_byteSize_le hbefore (read?_width_le hread)
    simp only [List.append_assoc, List.take_left, List.drop_left, byteSize_append,
      ← Nat.add_assoc] at hrest ih
    exact ih hrest rfl

/-! ### In front of an error -/

/-- **What is in front of an error of the lexer has lexemes**, and behind it stands a character that
neither is a separator nor starts a token. -/
theorem exists_front_of_error {e : SyntaxError} (h : tokenize text = .error e) :
    ∃ front c rest lexemes, text.toList = front ++ c :: rest ∧ byteSize front = e.place.offset ∧
      tokenize (String.ofList front) = .ok lexemes ∧ isSeparator c = false ∧
      read? (c :: rest) = none := by
  obtain ⟨stop, c, ⟨lexemes, rest, hpasses, hseparator, hread⟩, rfl⟩ := tokenize_eq_error_iff.1 h
  obtain ⟨front, htext, hstop, hfront⟩ := hpasses.exists_front
  rw [Nat.zero_add] at hstop
  have hboundary : Text.IsBoundary text stop := ⟨front, c :: rest, htext, hstop⟩
  refine ⟨front, c, rest, lexemes, htext, ?_, ?_, hseparator, hread⟩
  · exact hstop.symm.trans hboundary.offset_locate.symm
  · rwa [tokenize_eq_ok_iff, String.toList_ofList]

/-- **Nothing of a text is lost.** The lexemes of a text start one behind the other, and the text
ends behind all of them. Each stands for a slice of the text that is not empty, that ends where the
next one starts or in front of it, and whose only lexeme it is when the slice is a text by itself.
All characters that are in no slice are blanks, tabulators, carriage returns and line feeds. In a
text without lexemes, the part in front of the error has some, and behind it stands a character that
neither is a separator nor starts a token. -/
theorem lexemes_account_for_text (text : String) :
    (∀ lexemes, tokenize text = .ok lexemes →
      (starts text lexemes).Pairwise (· < ·) ∧
      (∀ found l next, lexemes = found ++ l :: next →
        ∃ before slice behind, text.toList = before ++ (slice ++ behind) ∧ slice ≠ [] ∧
          byteSize before = l.start ∧ byteSize (before ++ slice) = l.stop ∧
          (∀ o ∈ starts text next, l.stop ≤ o) ∧
          tokenize (String.ofList slice) = .ok [⟨l.token, 0, byteSize slice⟩]) ∧
      ∀ before c behind, text.toList = before ++ c :: behind →
        (∀ l ∈ lexemes, l.stop ≤ byteSize before ∨ byteSize before < l.start) →
        c ∈ [' ', '\t', '\r', '\n']) ∧
    ∀ e, tokenize text = .error e →
      ∃ front c rest lexemes, text.toList = front ++ c :: rest ∧
        byteSize front = e.place.offset ∧ tokenize (String.ofList front) = .ok lexemes ∧
        isSeparator c = false ∧ read? (c :: rest) = none := by
  refine ⟨fun lexemes h => ⟨pairwise_starts h, ?_, ?_⟩, fun e he => exists_front_of_error he⟩
  · rintro found l next rfl
    exact exists_slice h
  · intro before c behind htext hout
    have hlexed : Lexed 0 (before ++ c :: behind) lexemes := htext ▸ tokenize_eq_ok_iff.1 h
    have hseparator := hlexed.isSeparator_of_outside (by simpa using hout)
    simpa [isSeparator, or_assoc] using hseparator

set_option maxRecDepth 2000 in
/-- Lexemes that touch, a letter of two bytes and a tabulator; and a text in which the lexer gets
stuck behind such a letter. -/
theorem lexemes_account_for_text_touching : ∃ lexemes,
    tokenize "\"é\"<=1and\t(" = .ok lexemes ∧
    starts "\"é\"<=1and\t(" lexemes = [0, 4, 6, 7, 11, 12] ∧
    (starts "\"é\"<=1and\t(" lexemes).Pairwise (· < ·) ∧
    (∃ before slice behind, "\"é\"<=1and\t(".toList = before ++ (slice ++ behind) ∧
      byteSize before = 7 ∧ byteSize (before ++ slice) = 10 ∧
      tokenize (String.ofList slice) = .ok [⟨.join .and, 0, byteSize slice⟩]) ∧
    (∀ l ∈ lexemes, l.stop ≤ 10 ∨ 10 < l.start) ∧
    ∃ e, tokenize "\"é\" 01" = .error e ∧ e.place.offset = 5 ∧
      ∃ front lexemes, byteSize front = 5 ∧ tokenize (String.ofList front) = .ok lexemes := by
  have hlexemes : tokenize "\"é\"<=1and\t(" = .ok
      ([⟨.string "é", 0, 4⟩, ⟨.operator .atMost, 4, 6⟩, ⟨.number (.integer 1 (by decide)), 6, 7⟩] ++
        ⟨.join .and, 7, 10⟩ :: [⟨.opening, 11, 12⟩]) := rfl
  have herror : tokenize "\"é\" 01" = .error ⟨.invalidNumber, ⟨5, 1, 5⟩⟩ := rfl
  obtain ⟨hpairwise, hslices, -⟩ := (lexemes_account_for_text _).1 _ hlexemes
  obtain ⟨before, slice, behind, htext, -, hstart, hstop, -, halone⟩ := hslices _ _ _ rfl
  obtain ⟨front, -, -, lexemes, -, hfront, hbefore, -, -⟩ :=
    (lexemes_account_for_text _).2 _ herror
  exact ⟨_, hlexemes, rfl, hpairwise, ⟨before, slice, behind, htext, hstart, hstop, halone⟩,
    by decide, _, herror, rfl, front, lexemes, hfront, hbefore⟩

end RecordFilter.Token
