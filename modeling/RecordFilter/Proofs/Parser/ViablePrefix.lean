import RecordFilter.Proofs.Parser.Acceptance
import RecordFilter.Proofs.Token.Offset

/-!
# Errors are found at once

A viable prefix is what a sentence can start with. The parser reads exactly the viable prefixes
(`isViable_iff`): whatever it has read it can still complete, by finishing the condition that it is
in and closing the parentheses that are open (`exists_completion`), and what it refuses no sentence
has. So a text with lexemes that is no expression fails at the first token that makes it one that
no text behind can mend, or at its end (`error_at_earliest_token`).
-/

namespace RecordFilter

open RecordFilter.Parser

namespace Grammar

/-- Some sentence starts with the tokens. -/
def IsViable (ts : List Token) : Prop := ∃ rest, IsSentence (ts ++ rest)

/-! ### Completion -/

/-- Behind a term, all open parentheses can be closed. -/
theorem exists_completion_continuation (enclosing : List Frame) :
    ∀ (current : Frame) (bare : Option Operator), ∃ rest s,
      Reads ⟨current, enclosing, .continuation bare⟩ rest s ∧ ∃ e, finish s = .ok e := by
  induction enclosing with
  | nil =>
    intro current bare
    refine ⟨[], _, .nil _, ?_⟩
    unfold finish
    simp only
    split
    · simp_all
    · exact ⟨_, rfl⟩
    · exact ⟨_, rfl⟩
  | cons outer enclosing ih =>
    intro current bare
    obtain ⟨rest, s, hreads, hfinish⟩ := ih (outer.add current.close) none
    exact ⟨.closing :: rest, s, .cons (.closing rfl rfl) hreads, hfinish⟩

/-- The state behind tokens that lead to one with a completion has a completion. -/
theorem exists_completion_of_reads {s s' : State} {ts : List Token} (h : Reads s ts s')
    (h' : ∃ rest s'', Reads s' rest s'' ∧ ∃ e, finish s'' = .ok e) :
    ∃ rest s'', Reads s rest s'' ∧ ∃ e, finish s'' = .ok e := by
  obtain ⟨rest, s'', hreads, hfinish⟩ := h'
  exact ⟨ts ++ rest, s'', h.append hreads, hfinish⟩

/-- **Every state can be completed**: some tokens lead from it to a state that finishes. -/
theorem exists_completion (s : State) :
    ∃ rest s', Reads s rest s' ∧ ∃ e, finish s' = .ok e := by
  obtain ⟨current, enclosing, expectation⟩ := s
  -- one of the shortest ways to the end of the condition, and then the closing parentheses
  cases expectation with
  | continuation bare => exact exists_completion_continuation enclosing current bare
  | value property op =>
    have hvalue : Reads ⟨current, enclosing, .value property op⟩ [.boolean true] _ :=
      .cons (.value rfl rfl) (.nil _)
    exact exists_completion_of_reads hvalue (exists_completion_continuation _ _ _)
  | operator property =>
    have hbare : Reads ⟨current, enclosing, .operator property⟩ [.operator .present] _ :=
      .cons (.bare rfl rfl) (.nil _)
    exact exists_completion_of_reads hbare (exists_completion_continuation _ _ _)
  | term =>
    have hcondition : Reads ⟨current, enclosing, .term⟩ [.string "a", .operator .present] _ :=
      .cons (.property rfl (by decide)) (.cons (.bare rfl rfl) (.nil _))
    exact exists_completion_of_reads hcondition (exists_completion_continuation _ _ _)

/-! ### Viable prefixes -/

/-- The sentences are what can be read from the start and finished. -/
theorem isSentence_iff_reads {ts : List Token} :
    IsSentence ts ↔ ∃ s, Reads .start ts s ∧ ∃ e, finish s = .ok e := by
  rw [isSentence_iff]
  constructor
  · rintro ⟨g, htokens, hdepth⟩
    obtain ⟨s, hreads, hfinish⟩ := exists_reads_iff.2 ⟨g, htokens, hdepth, rfl⟩
    exact ⟨s, hreads, g.expr, hfinish⟩
  · rintro ⟨s, hreads, e, hfinish⟩
    obtain ⟨g, htokens, hdepth, -⟩ := exists_reads_iff.1 ⟨s, hreads, hfinish⟩
    exact ⟨g, htokens, hdepth⟩

/-- **The parser reads the viable prefixes**, and nothing else. -/
theorem isViable_iff {ts : List Token} : IsViable ts ↔ ∃ s, Reads .start ts s := by
  constructor
  · rintro ⟨rest, hsentence⟩
    obtain ⟨s, hreads, -⟩ := isSentence_iff_reads.1 hsentence
    obtain ⟨s', hbefore, -⟩ := hreads.split
    exact ⟨s', hbefore⟩
  · rintro ⟨s, hreads⟩
    obtain ⟨rest, s', hrest, hfinish⟩ := exists_completion s
    exact ⟨rest, isSentence_iff_reads.2 ⟨s', hreads.append hrest, hfinish⟩⟩

/-- A token that is refused makes a viable prefix one that no sentence starts with. -/
theorem not_isViable_of_refused {ts : List Token} {t : Token} {s : State} {fault : Fault}
    (h : Reads .start ts s) (hrefused : step s t = .error fault) : ¬ IsViable (ts ++ [t]) := by
  rw [isViable_iff]
  rintro ⟨s', hreads⟩
  obtain ⟨s'', hbefore, hlast⟩ := hreads.split
  obtain rfl := h.unique hbefore
  cases hlast with
  | cons hstep _ => simp [step_of_step hstep] at hrefused

/-- What the parser has read and cannot finish is no sentence. -/
theorem not_isSentence_of_unfinished {ts : List Token} {s : State} {fault : Fault}
    (h : Reads .start ts s) (hfinish : finish s = .error fault) : ¬ IsSentence ts := by
  rw [isSentence_iff_reads]
  rintro ⟨s', hreads, e, he⟩
  obtain rfl := h.unique hreads
  simp [hfinish] at he

/-! ### The place of an error -/

/-- A text with lexemes that is no expression has an error of the parser. -/
theorem exists_run_error {text : String} {lexemes : List Lexeme} {e : SyntaxError}
    (h : Token.tokenize text = .ok lexemes) (he : Expr.parse text = .error e) :
    ∃ offset fault, run .start text.utf8ByteSize lexemes = .error (offset, fault) ∧
      e = .ofOffset text offset fault := by
  rw [Expr.parse, h] at he
  simp only at he
  split at he
  · rename_i offset fault hrun
    exact ⟨offset, fault, hrun, (Except.error.inj he).symm⟩
  · simp at he

/-- **Errors are at the earliest possible token**: what stands before the error can still become a
sentence, and together with the token at the error, or as the whole text, it cannot. -/
theorem error_at_earliest_token {text : String} {lexemes : List Lexeme} {e : SyntaxError}
    (h : Token.tokenize text = .ok lexemes) (he : Expr.parse text = .error e) :
    (∃ before l behind, lexemes = before ++ l :: behind ∧ e.place.offset = l.start ∧
      IsViable (before.map Lexeme.token) ∧
      ¬ IsViable (before.map Lexeme.token ++ [l.token])) ∨
    (e.place.offset = text.utf8ByteSize ∧ IsViable (lexemes.map Lexeme.token) ∧
      ¬ IsSentence (lexemes.map Lexeme.token)) := by
  obtain ⟨offset, fault, hrun, rfl⟩ := exists_run_error h he
  rcases run_eq_error hrun with ⟨before, l, behind, s, hsplit, rfl, hreads, hrefused⟩ |
    ⟨s, rfl, hreads, hfinish⟩
  · have hl : l ∈ lexemes := hsplit ▸ List.mem_append_right _ List.mem_cons_self
    refine .inl ⟨before, l, behind, hsplit, Token.offset_locate_start h hl, ?_, ?_⟩
    · exact isViable_iff.2 ⟨s, hreads⟩
    · exact not_isViable_of_refused hreads hrefused
  · refine .inr ⟨Token.offset_locate_end text, isViable_iff.2 ⟨s, hreads⟩, ?_⟩
    exact not_isSentence_of_unfinished hreads hfinish

set_option maxRecDepth 2000 in
/-- A join word that does not fit the group, behind a line break and a letter of two bytes: all
before it could be mended, and nothing from it on. -/
theorem error_at_earliest_token_mixed : ∃ lexemes e,
    Token.tokenize "\"é\" == 1 and\n\"b\" exists or \"c\" < 2" = .ok lexemes ∧
    Expr.parse "\"é\" == 1 and\n\"b\" exists or \"c\" < 2" = .error e ∧
    e = ⟨.mixedJoins .or .and, ⟨25, 2, 12⟩⟩ ∧
    ((∃ before l behind, lexemes = before ++ l :: behind ∧ e.place.offset = l.start ∧
        IsViable (before.map Lexeme.token) ∧
        ¬ IsViable (before.map Lexeme.token ++ [l.token])) ∨
      (e.place.offset = "\"é\" == 1 and\n\"b\" exists or \"c\" < 2".utf8ByteSize ∧
        IsViable (lexemes.map Lexeme.token) ∧ ¬ IsSentence (lexemes.map Lexeme.token))) := by
  have hlexemes : Token.tokenize "\"é\" == 1 and\n\"b\" exists or \"c\" < 2" = .ok
      [⟨.string "é", 0, 4⟩, ⟨.operator .equal, 5, 7⟩, ⟨.number (.integer 1 (by decide)), 8, 9⟩,
        ⟨.join .and, 10, 13⟩, ⟨.string "b", 14, 17⟩, ⟨.operator .present, 18, 24⟩,
        ⟨.join .or, 25, 27⟩, ⟨.string "c", 28, 31⟩, ⟨.operator .less, 32, 33⟩,
        ⟨.number (.integer 2 (by decide)), 34, 35⟩] := rfl
  have herror : Expr.parse "\"é\" == 1 and\n\"b\" exists or \"c\" < 2" =
      .error ⟨.mixedJoins .or .and, ⟨25, 2, 12⟩⟩ := rfl
  exact ⟨_, _, hlexemes, herror, rfl, error_at_earliest_token hlexemes herror⟩

end Grammar

end RecordFilter
