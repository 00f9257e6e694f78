import RecordFilter.Proofs.Parser.Step
import RecordFilter.Proofs.Token.Fragment

/-!
# Reading characters piece by piece

`Parser.Accepts s cs`: the characters have tokens, and these take the parser from the state to one
that finishes. So a text parses exactly if it is accepted from the start (`exists_parse_iff`), and a
piece in front of accepted characters can be taken off: the parser has read its tokens, and accepts
the rest from where it is then. Nothing has to be known of the rest, not even that it has tokens.
-/

namespace RecordFilter.Parser

open Token (Spells Writes Delimits isSeparator read? joinText)

variable {s : State} {cs rest : List Char}

/-- From the state on, the characters are the rest of an expression. -/
def Accepts (s : State) (cs : List Char) : Prop :=
  ∃ ts s', Spells cs ts ∧ Reads s ts s' ∧ ∃ e, finish s' = .ok e

/-- A text parses exactly if it is accepted from the start. -/
theorem exists_parse_iff {text : String} :
    (∃ e, Expr.parse text = .ok e) ↔ Accepts .start text.toList := by
  constructor
  · rintro ⟨e, he⟩
    obtain ⟨lexemes, hlexemes⟩ := Expr.exists_tokenize_of_parse he
    obtain ⟨s, hreads, hfinish⟩ := (parse_eq_ok_iff_reads hlexemes).1 he
    exact ⟨_, s, (Token.tokenize_eq_ok_iff.1 hlexemes).spells, hreads, e, hfinish⟩
  · rintro ⟨ts, s, hspells, hreads, e, hfinish⟩
    obtain ⟨lexemes, hlexemes, rfl⟩ := hspells.exists_tokenize
    exact ⟨e, (parse_eq_ok_iff_reads hlexemes).2 ⟨s, hreads, hfinish⟩⟩

namespace Accepts

theorem of_separator {c : Char} (h : Accepts s (c :: cs)) (hc : isSeparator c = true) :
    Accepts s cs := by
  obtain ⟨ts, s', hspells, hreads, hfinish⟩ := h
  exact ⟨ts, s', hspells.of_separator hc, hreads, hfinish⟩

/-- A token in front is taken in a step. -/
theorem of_read? {t : Token} (h : Accepts s (cs ++ rest))
    (hr : read? (cs ++ rest) = some (t, cs.length)) : ∃ s', Step s t s' ∧ Accepts s' rest := by
  obtain ⟨ts, s'', hspells, hreads, hfinish⟩ := h
  obtain ⟨ts', hspells', rfl⟩ := hspells.of_append hr
  cases hreads with
  | @cons _ s' _ _ _ hstep hreads => exact ⟨s', hstep, ts', s'', hspells', hreads, hfinish⟩

/-- The tokens of a written piece in front of a delimiter are read. -/
theorem of_writes {ts : List Token} (h : Accepts s (cs ++ rest)) (hcs : Writes cs ts)
    (hrest : Delimits rest) : ∃ s', Reads s ts s' ∧ Accepts s' rest := by
  obtain ⟨all, s'', hspells, hreads, hfinish⟩ := h
  obtain ⟨ts', hspells', rfl⟩ := hcs.exists_behind hrest hspells
  obtain ⟨s', hbefore, hbehind⟩ := hreads.split
  exact ⟨s', hbefore, ts', s'', hspells', hbehind, hfinish⟩

/-- A written token in front of a delimiter is taken in a step. -/
theorem of_writes_singleton {t : Token} (h : Accepts s (cs ++ rest)) (hcs : Writes cs [t])
    (hrest : Delimits rest) : ∃ s', Step s t s' ∧ Accepts s' rest := by
  obtain ⟨s', hreads, hrest'⟩ := h.of_writes hcs hrest
  cases hreads with
  | cons hstep hreads =>
    cases hreads with
    | nil => exact ⟨_, hstep, hrest'⟩

theorem of_opening (h : Accepts s ('(' :: cs)) : ∃ s', Step s .opening s' ∧ Accepts s' cs := by
  have hfirst : Accepts s (['('] ++ cs) := h
  exact hfirst.of_read? rfl

theorem of_closing (h : Accepts s (')' :: cs)) : ∃ s', Step s .closing s' ∧ Accepts s' cs := by
  have hfirst : Accepts s ([')'] ++ cs) := h
  exact hfirst.of_read? rfl

/-- A join word with spaces around it is taken in a step. -/
theorem of_join {j : Join} (h : Accepts s ((joinText j).toList ++ cs)) :
    ∃ s', Step s (.join j) s' ∧ Accepts s' cs := by
  have hform : (joinText j).toList ++ cs = ' ' :: (j.word.toList ++ ' ' :: cs) := by
    simp [joinText]
  rw [hform] at h
  obtain ⟨s', hstep, hrest⟩ := (h.of_separator rfl).of_writes_singleton (Token.writes_joinWord j)
    (Token.delimits_space cs)
  exact ⟨s', hstep, hrest.of_separator rfl⟩

/-- A property and an operator are taken where a term must follow, if the property has a name. -/
theorem of_head {property : String} {op : Operator} (hexpects : s.expectation = .term)
    (hrest : Delimits rest)
    (h : Accepts s ((Text.quote property ++ " " ++ op.symbol).toList ++ rest)) :
    property ≠ "" ∧ ∃ s', Accepts s' rest := by
  have hwrites : Writes (Text.quote property ++ " " ++ op.symbol).toList
      [.string property, .operator op] := by
    simpa using (Token.writes_quote property).space (Token.writes_symbol op)
  obtain ⟨s', hreads, hrest'⟩ := h.of_writes hwrites hrest
  cases hreads with
  | cons hstep _ => exact ⟨(hstep.of_string hexpects).1, s', hrest'⟩

/-- A word that means nothing is accepted nowhere. -/
theorem not_of_word {w : String} (hw : Writes cs [.word w]) (hrest : Delimits rest) :
    ¬ Accepts s (cs ++ rest) := by
  intro h
  obtain ⟨s', hstep, -⟩ := h.of_writes_singleton hw hrest
  cases hstep with
  | value _ hoperand => simp [operand?] at hoperand

/-- Nothing can follow only where an expression may end. -/
theorem exists_finish (h : Accepts s []) : ∃ e, finish s = .ok e := by
  obtain ⟨ts, s', hspells, hreads, hfinish⟩ := h
  obtain rfl := hspells.eq_nil
  cases hreads with
  | nil => exact hfinish

end Accepts

end RecordFilter.Parser
