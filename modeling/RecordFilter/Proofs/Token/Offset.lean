import RecordFilter.Proofs.Token.Lexing

/-!
# Where lexemes stand

Offsets count the bytes of the characters in front (`byteSize`). The offset of a place between two
characters is found again by `Text.locate` (`Text.IsBoundary.offset_locate`), and every lexeme
stands for a slice of the characters that starts at such a place (`Lexed.exists_slice`), so
nothing is lost when the offset of a lexeme, or that of the end of a text, becomes the place of an
error.
-/

namespace RecordFilter

namespace Token

/-! ### Bytes of characters -/

@[simp]
theorem byteSize_append (cs cs' : List Char) :
    byteSize (cs ++ cs') = byteSize cs + byteSize cs' := by
  induction cs with
  | nil => simp [byteSize]
  | cons c cs ih => rw [List.cons_append, byteSize, ih, byteSize, Nat.add_assoc]

theorem byteSize_pos {cs : List Char} (h : cs ≠ []) : 0 < byteSize cs := by
  cases cs with
  | nil => exact absurd rfl h
  | cons c cs =>
    have hc := c.utf8Size_pos
    rw [byteSize]
    omega

/-- Counting the bytes of the characters of a text counts those of the text. -/
theorem byteSize_toList (text : String) : byteSize text.toList = text.utf8ByteSize := by
  have hchars : ∀ cs, byteSize cs = (String.ofList cs).utf8ByteSize := by
    intro cs
    induction cs with
    | nil => rfl
    | cons c cs ih =>
      rw [byteSize, ih, String.ofList_cons, String.utf8ByteSize_append,
        String.utf8ByteSize_singleton]
  rw [hchars, String.ofList_toList]

/-! ### Places -/

@[simp]
theorem offset_next (p : Text.Place) (c : Char) : (p.next c).offset = p.offset + c.utf8Size := by
  unfold Text.Place.next
  split <;> rfl

theorem offset_foldl_next (cs : List Char) (p : Text.Place) :
    (cs.foldl Text.Place.next p).offset = p.offset + byteSize cs := by
  induction cs generalizing p with
  | nil => rfl
  | cons c cs ih => rw [List.foldl_cons, ih, offset_next, byteSize, Nat.add_assoc]

/-- Looking for the offset behind some characters stops behind them. -/
theorem seek_append (before behind : List Char) (p : Text.Place) :
    Text.Place.seek (p.offset + byteSize before) p (before ++ behind) =
      before.foldl Text.Place.next p := by
  induction before generalizing p with
  | nil => cases behind <;> simp [Text.Place.seek, byteSize]
  | cons c cs ih =>
    have hpos : p.offset < p.offset + byteSize (c :: cs) := by
      have hc := c.utf8Size_pos
      rw [byteSize]
      omega
    have hoffset : p.offset + byteSize (c :: cs) = (p.next c).offset + byteSize cs := by
      rw [offset_next, byteSize, Nat.add_assoc]
    rw [List.cons_append, Text.Place.seek, if_pos hpos, hoffset, ih, List.foldl_cons]

/-- The place of an offset between characters is the one to which those in front of it lead. -/
theorem locate_eq {text : String} {before behind : List Char} (h : text.toList = before ++ behind) :
    Text.locate text (byteSize before) = before.foldl Text.Place.next Text.Place.start := by
  have hseek := seek_append before behind Text.Place.start
  rwa [Text.Place.start, Nat.zero_add, ← Text.Place.start, ← h] at hseek

end Token

namespace Text

open Token (byteSize)

variable {text : String} {offset : Nat}

/-- The offset is that of a place between two characters of the text or at one of its ends. -/
def IsBoundary (text : String) (offset : Nat) : Prop :=
  ∃ before behind, text.toList = before ++ behind ∧ offset = byteSize before

theorem IsBoundary.le (h : IsBoundary text offset) : offset ≤ text.utf8ByteSize := by
  obtain ⟨before, behind, htext, rfl⟩ := h
  rw [← Token.byteSize_toList, htext, Token.byteSize_append]
  exact Nat.le_add_right _ _

theorem isBoundary_end (text : String) : IsBoundary text text.utf8ByteSize :=
  ⟨text.toList, [], (List.append_nil _).symm, (Token.byteSize_toList text).symm⟩

/-- **Offsets between characters are found**: the place of such an offset is at the offset. -/
theorem IsBoundary.offset_locate (h : IsBoundary text offset) :
    (locate text offset).offset = offset := by
  obtain ⟨before, behind, htext, rfl⟩ := h
  rw [Token.locate_eq htext, Token.offset_foldl_next, Place.start, Nat.zero_add]

end Text

namespace Token

theorem offset_locate_end (text : String) :
    (Text.locate text text.utf8ByteSize).offset = text.utf8ByteSize :=
  (Text.isBoundary_end text).offset_locate

/-! ### Lexemes -/

/-- The first lexeme stands behind separators. -/
theorem Lexed.of_cons {offset : Nat} {cs : List Char} {l : Lexeme} {lexemes : List Lexeme}
    (h : Lexed offset cs (l :: lexemes)) :
    ∃ gap slice rest, cs = gap ++ (slice ++ rest) ∧ (∀ c ∈ gap, isSeparator c = true) ∧
      read? (slice ++ rest) = some (l.token, slice.length) ∧ l.start = offset + byteSize gap ∧
      l.stop = l.start + byteSize slice ∧ Lexed l.stop rest lexemes := by
  generalize hall : l :: lexemes = all at h
  induction h with
  | nil => simp at hall
  | @separator offset c _ _ hc _ ih =>
    obtain ⟨gap, slice, rest, rfl, hgap, hread, hstart, hstop, hrest⟩ := ih hall
    refine ⟨c :: gap, slice, rest, rfl, List.forall_mem_cons.2 ⟨hc, hgap⟩, hread, ?_, hstop, hrest⟩
    rw [hstart, byteSize, Nat.add_assoc]
  | @token offset width cs _ _ hread h _ =>
    obtain ⟨rfl, rfl⟩ := List.cons.inj hall
    refine ⟨[], cs.take width, cs.drop width, ?_, by simp, ?_, rfl, rfl, h⟩
    · rw [List.nil_append, List.take_append_drop]
    · rw [List.take_append_drop, List.length_take_of_le (read?_width_le hread), hread]

/-- **The slice of a lexeme**: the characters that it stands for, between those in front of it and
those behind. -/
theorem Lexed.exists_slice {offset : Nat} {cs : List Char} {found lexemes : List Lexeme}
    {l : Lexeme} (h : Lexed offset cs (found ++ l :: lexemes)) :
    ∃ before slice rest, cs = before ++ (slice ++ rest) ∧
      read? (slice ++ rest) = some (l.token, slice.length) ∧
      l.start = offset + byteSize before ∧ l.stop = l.start + byteSize slice ∧
      Lexed l.stop rest lexemes := by
  induction found generalizing offset cs with
  | nil =>
    obtain ⟨gap, slice, rest, hcs, -, hlast⟩ := h.of_cons
    exact ⟨gap, slice, rest, hcs, hlast⟩
  | cons l' found ih =>
    obtain ⟨gap, slice', rest', rfl, -, -, hstart', hstop', hrest'⟩ := h.of_cons
    obtain ⟨before, slice, rest, rfl, hread, hstart, hstop, hrest⟩ := ih hrest'
    refine ⟨gap ++ (slice' ++ before), slice, rest, by simp, hread, ?_, hstop, hrest⟩
    rw [hstart, hstop', hstart', byteSize_append, byteSize_append, Nat.add_assoc, Nat.add_assoc]

/-- A lexeme starts behind some of the characters. -/
theorem Lexed.exists_start {offset : Nat} {cs : List Char} {lexemes : List Lexeme}
    (h : Lexed offset cs lexemes) {l : Lexeme} (hl : l ∈ lexemes) :
    ∃ before behind, cs = before ++ behind ∧ l.start = offset + byteSize before := by
  obtain ⟨_, _, rfl⟩ := List.append_of_mem hl
  obtain ⟨before, slice, rest, hcs, -, hstart, -, -⟩ := h.exists_slice
  exact ⟨before, slice ++ rest, hcs, hstart⟩

/-- Lexemes start between characters. -/
theorem isBoundary_start {text : String} {lexemes : List Lexeme} (h : tokenize text = .ok lexemes)
    {l : Lexeme} (hl : l ∈ lexemes) : Text.IsBoundary text l.start := by
  obtain ⟨before, behind, htext, hstart⟩ := (tokenize_eq_ok_iff.1 h).exists_start hl
  exact ⟨before, behind, htext, by rw [hstart, Nat.zero_add]⟩

/-- The place of the offset at which a lexeme starts is at that offset. -/
theorem offset_locate_start {text : String} {lexemes : List Lexeme}
    (h : tokenize text = .ok lexemes) {l : Lexeme} (hl : l ∈ lexemes) :
    (Text.locate text l.start).offset = l.start :=
  (isBoundary_start h hl).offset_locate

end Token

end RecordFilter
