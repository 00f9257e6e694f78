import RecordFilter.Proofs.Draft
import RecordFilter.Proofs.Expr.RoundTrip

/-!
# Dates and timestamps keep their kind through text

A date literal holds a text in the form of a date or a timestamp, and a string literal one in
neither form; the literals of the calendar are of this sort (`isWritable_ofDate`,
`isWritable_ofTimestamp`). So reading a text again, be it the bare text, its quoted form in front
of anything, or a whole condition, gives the literal that was written (`IsWritable.rereads`).
-/

namespace RecordFilter

namespace Literal

/-- A literal holds a text, and this text is read as the same literal: as it is, as an operand in
its quoted form with anything behind it, and within a condition. -/
structure Rereads (v : Literal) (s : String) : Prop where
  eq_or : v = .date s ∨ v = .string s
  ofText_eq : ofText s = v
  operand (rest : List Char) :
    Token.read? (v.text.toList ++ rest) = some (.string s, v.text.toList.length) ∧
      Parser.operand? (.string s) = some v
  condition {property : String} {op : Operator} : property ≠ "" → op.takesValue = true →
    Expr.parse (Expr.condition ⟨property, op, some v⟩).text =
      .ok (.condition ⟨property, op, some v⟩)

/-- A text that is written under the kind that its form gives it is read again under this kind. -/
theorem IsWritable.rereads {v : Literal} {s : String} (h : v.IsWritable)
    (hv : v = .date s ∨ v = .string s) : v.Rereads s := by
  have hofText : ofText s = v := by
    rcases hv with rfl | rfl
    · exact if_pos h
    · exact if_neg (ne_true_of_eq_false h)
  have htext : v.text = Text.quote s := by
    rcases hv with rfl | rfl <;> rfl
  refine ⟨hv, hofText, fun rest => ?_, fun {property op} hproperty htakes => ?_⟩
  · rw [htext]
    exact ⟨Token.read?_text_quote s rest, congrArg some hofText⟩
  · have hwritable : ∀ c ∈ (Expr.condition ⟨property, op, some v⟩).conditions, c.IsWritable := by
      simp only [Expr.conditions, List.mem_singleton, forall_eq]
      exact ⟨hproperty, htakes.symm, fun v' hv' => Option.some.inj hv' ▸ h⟩
    refine (Expr.parse_text_eq_ok_iff hwritable).2 ⟨?_, ?_, rfl⟩
    · simp [Expr.groups]
    · exact Nat.zero_le _

/-- Whether the RFC 3339 form can hold a timestamp is a matter of its year and of its offset, which
has to be of whole minutes and less than a day. -/
theorem isExpressible_iff {t : Calendar.Timestamp} :
    t.isExpressible = true ↔ 0 ≤ t.date.year ∧ t.offset.natAbs < 86400 ∧ 60 ∣ t.offset := by
  simp only [Calendar.Timestamp.isExpressible, Bool.and_eq_true, decide_eq_true_eq, beq_iff_eq]
  omega

/-- **Dates and timestamps keep their kind through text.** Every date is a date literal, and is
read again as this literal. So is every timestamp that the RFC 3339 form can hold; any other one
is a string literal with its long form, and no form of dates turns this text into a date again. -/
theorem calendar_kinds_kept :
    (∀ d : Calendar.Date, ofDate d = .date d.text ∧ (ofDate d).Rereads d.text) ∧
    ∀ t : Calendar.Timestamp,
      if 0 ≤ t.date.year ∧ t.offset.natAbs < 86400 ∧ 60 ∣ t.offset then
        ofTimestamp t = .date t.text ∧ (ofTimestamp t).Rereads t.text
      else ofTimestamp t = .string t.longText ∧ (ofTimestamp t).Rereads t.longText := by
  constructor
  · intro d
    exact ⟨rfl, (isWritable_ofDate d).rereads (.inl rfl)⟩
  · intro t
    have hwritable := isWritable_ofTimestamp t
    split
    · rename_i hfits
      have hdate : ofTimestamp t = .date t.text := if_pos (isExpressible_iff.2 hfits)
      exact ⟨hdate, hwritable.rereads (.inl hdate)⟩
    · rename_i hfits
      have hstring : ofTimestamp t = .string t.longText := if_neg (mt isExpressible_iff.1 hfits)
      exact ⟨hstring, hwritable.rereads (.inr hstring)⟩

end Literal

end RecordFilter
