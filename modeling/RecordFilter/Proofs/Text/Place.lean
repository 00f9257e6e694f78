import Mathlib.Data.Prod.Lex
import Mathlib.Order.Monotone.Defs
import RecordFilter.Proofs.Token.Offset

/-!
# Lines and columns

The line and the column of a place say as much as its offset. They lead back to the offset
(`offsetOf?_locate`): behind as many line feeds and as many characters of the line as they count
stands the place that they belong to. They also grow with the offset
(`strictMonoOn_lineColumn_locate`), as every character of a text moves a place on in the
lexicographic order of lines and columns.
-/

namespace RecordFilter.Text

open Token (byteSize)

/-- The offset to which a number of line feeds lead, and then a number of characters of the line
that starts behind them, if the characters stand at an offset and there are as many. -/
def reach? : (lineFeeds characters offset : Nat) → List Char → Option Nat
  | 0, 0, offset, _ => some offset
  | _, _, _, [] => none
  | 0, characters + 1, offset, c :: cs =>
    if c = '\n' then none else reach? 0 characters (offset + c.utf8Size) cs
  | lineFeeds + 1, characters, offset, c :: cs =>
    reach? (if c = '\n' then lineFeeds else lineFeeds + 1) characters (offset + c.utf8Size) cs

/-- The offset that a line and a column of a text denote, both counted from one. -/
def offsetOf? (text : String) (line column : Nat) : Option Nat :=
  if line = 0 ∨ column = 0 then none else reach? (line - 1) (column - 1) 0 text.toList

namespace Place

variable (p : Place)

/-- The line and the column of a place, in the order in which texts are read. -/
def lineColumn : ℕ ×ₗ ℕ := toLex (p.line, p.column)

theorem lineColumn_lt_next (c : Char) : p.lineColumn < (p.next c).lineColumn := by
  rw [lineColumn, lineColumn, Prod.Lex.toLex_lt_toLex, next]
  split
  · exact .inl (Nat.lt_succ_self _)
  · exact .inr ⟨rfl, Nat.lt_succ_self _⟩

theorem lineColumn_le_foldl (cs : List Char) :
    p.lineColumn ≤ (cs.foldl next p).lineColumn := by
  induction cs generalizing p with
  | nil => exact le_rfl
  | cons c cs ih => exact (p.lineColumn_lt_next c).le.trans (ih (p.next c))

theorem lineColumn_lt_foldl {cs : List Char} (h : cs ≠ []) :
    p.lineColumn < (cs.foldl next p).lineColumn := by
  cases cs with
  | nil => exact absurd rfl h
  | cons c cs => exact (p.lineColumn_lt_next c).trans_le ((p.next c).lineColumn_le_foldl cs)

/-- Columns count from one. -/
theorem column_foldl_pos (h : 0 < p.column) (cs : List Char) : 0 < (cs.foldl next p).column := by
  induction cs generalizing p with
  | nil => exact h
  | cons c cs ih =>
    refine ih (p.next c) ?_
    rw [next]
    split <;> simp

/-- A place is found behind the line feeds and the characters by which it is further than the place
where the characters start. -/
theorem reach?_foldl (before behind : List Char) :
    reach? ((before.foldl next p).line - p.line)
      ((before.foldl next p).column - if (before.foldl next p).line = p.line then p.column else 1)
      p.offset (before ++ behind) = some (before.foldl next p).offset := by
  induction before generalizing p with
  | nil => simp [reach?]
  | cons c cs ih =>
    have hle := (p.next c).lineColumn_le_foldl cs
    have hrest := ih (p.next c)
    rw [lineColumn, lineColumn, Prod.Lex.toLex_le_toLex] at hle
    rw [Token.offset_next] at hrest
    rw [List.foldl_cons, List.cons_append]
    generalize cs.foldl next (p.next c) = q at hle hrest ⊢
    by_cases hc : c = '\n'
    · -- one line feed fewer is ahead, and columns count from one behind it
      have hnext : (p.next c).line = p.line + 1 ∧ (p.next c).column = 1 := by simp [next, hc]
      rw [hnext.1, hnext.2] at hle hrest
      obtain ⟨n, hn⟩ : ∃ n, q.line - p.line = n + 1 := ⟨q.line - p.line - 1, by omega⟩
      have hn' : q.line - (p.line + 1) = n := by omega
      have hne : q.line ≠ p.line := by omega
      rw [hn', ite_self] at hrest
      rw [hn, if_neg hne, reach?, if_pos hc, hrest]
    · have hnext : (p.next c).line = p.line ∧ (p.next c).column = p.column + 1 := by simp [next, hc]
      rw [hnext.1, hnext.2] at hle hrest
      by_cases hline : q.line = p.line
      · -- on the line of the place one character fewer is ahead
        obtain ⟨n, hn⟩ : ∃ n, q.column - p.column = n + 1 := ⟨q.column - p.column - 1, by omega⟩
        have hn' : q.column - (p.column + 1) = n := by omega
        rw [if_pos hline, hline, Nat.sub_self, hn'] at hrest
        rw [if_pos hline, hline, Nat.sub_self, hn, reach?, if_neg hc, hrest]
      · obtain ⟨n, hn⟩ : ∃ n, q.line - p.line = n + 1 := ⟨q.line - p.line - 1, by omega⟩
        rw [if_neg hline, hn] at hrest
        rw [if_neg hline, hn, reach?, if_neg hc, hrest]

end Place

/-! ### Places of a text -/

variable {text : String}

/-- **Lines and columns lead back**: the line and the column of an offset between characters denote
the offset. -/
theorem offsetOf?_locate {offset : Nat} (h : IsBoundary text offset) :
    offsetOf? text (locate text offset).line (locate text offset).column = some offset := by
  have hoffset := h.offset_locate
  obtain ⟨before, behind, htext, rfl⟩ := h
  have hreach := Place.start.reach?_foldl before behind
  have hle := Place.start.lineColumn_le_foldl before
  have hpos := Place.start.column_foldl_pos Nat.one_pos before
  rw [← Token.locate_eq htext] at hreach hle hpos
  rw [hoffset, ← htext] at hreach
  generalize locate text (byteSize before) = q at hreach hle hpos ⊢
  have hcolumn : (if q.line = Place.start.line then Place.start.column else 1) = 1 := by
    split <;> rfl
  rw [hcolumn] at hreach
  rw [Place.lineColumn, Place.lineColumn, Prod.Lex.toLex_le_toLex] at hle
  simp only [Place.start] at hle hreach
  rw [offsetOf?, if_neg (by omega), hreach]

/-- **Lines and columns grow** with the offsets between characters. -/
theorem strictMonoOn_lineColumn_locate (text : String) :
    StrictMonoOn (fun offset => (locate text offset).lineColumn)
      {offset | IsBoundary text offset} := by
  rintro _ ⟨before, behind, htext, rfl⟩ _ ⟨before', behind', htext', rfl⟩ hlt
  -- the characters in front of the greater offset start with those in front of the smaller one
  have hprefix : before <+: before' := by
    rcases List.prefix_or_prefix_of_prefix (List.prefix_append before behind)
      (htext ▸ htext' ▸ List.prefix_append before' behind') with h | ⟨more, rfl⟩
    · exact h
    · rw [Token.byteSize_append] at hlt
      omega
  obtain ⟨more, rfl⟩ := hprefix
  have hne : more ≠ [] := by
    rintro rfl
    simp at hlt
  simp only [Token.locate_eq htext, Token.locate_eq htext', List.foldl_append]
  exact Place.lineColumn_lt_foldl _ hne

end RecordFilter.Text
