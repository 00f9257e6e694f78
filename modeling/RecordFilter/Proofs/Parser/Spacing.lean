import RecordFilter.Proofs.Parser.ViablePrefix
import RecordFilter.Proofs.Token.Extent

/-!
# Separators between tokens

Separators may be put in wherever no lexeme is torn apart, and only where lexemes stand changes: those
behind the place move on by as many bytes (`Lexed.insert`). That is no matter of course, since tokens
may touch, and what a token is was decided with its neighbour in view. But a token is still read when
everything behind it is gone, and a separator stands for that (`read?_insert`).

The parser looks at the tokens and hands on where they start, so it gives the same expression, or the
same fault at the same token (`run_map`).
-/

namespace RecordFilter

namespace Token

/-! ### Moving lexemes -/

/-- Where an offset comes to be when so many bytes are put in at a place. -/
def pushed (place size offset : Nat) : Nat := if place ≤ offset then offset + size else offset

end Token

namespace Lexeme

/-- The lexeme so many bytes later. -/
def later (size : Nat) (l : Lexeme) : Lexeme := ⟨l.token, l.start + size, l.stop + size⟩

/-- The lexeme when so many bytes are put in at a place that is not inside it. -/
def pushed (place size : Nat) (l : Lexeme) : Lexeme := if place ≤ l.start then l.later size else l

variable (place size : Nat) (l : Lexeme)

@[simp]
theorem token_pushed : (l.pushed place size).token = l.token := by
  unfold pushed
  split <;> rfl

@[simp]
theorem start_pushed : (l.pushed place size).start = Token.pushed place size l.start := by
  unfold pushed Token.pushed
  split <;> rfl

end Lexeme

namespace Token

variable {offset : Nat} {cs before after gap : List Char} {lexemes : List Lexeme}

theorem Lexed.later (h : Lexed offset cs lexemes) (size : Nat) :
    Lexed (offset + size) cs (lexemes.map (Lexeme.later size)) := by
  induction h with
  | nil offset => exact .nil _
  | separator hc _ ih =>
    rw [Nat.add_right_comm] at ih
    exact .separator hc ih
  | token hread _ ih =>
    rw [Nat.add_right_comm] at ih
    rw [List.map_cons, Lexeme.later, Nat.add_right_comm]
    exact .token hread ih

theorem Lexed.separators (hgap : ∀ c ∈ gap, isSeparator c = true)
    (h : Lexed (offset + byteSize gap) cs lexemes) : Lexed offset (gap ++ cs) lexemes := by
  induction gap generalizing offset with
  | nil => exact h
  | cons c gap ih =>
    obtain ⟨hc, hgap⟩ := List.forall_mem_cons.1 hgap
    rw [byteSize, ← Nat.add_assoc] at h
    exact .separator hc (ih hgap h)

/-- Separators in front move all lexemes. -/
theorem Lexed.insert_front (h : Lexed offset cs lexemes) (hgap : ∀ c ∈ gap, isSeparator c = true) :
    Lexed offset (gap ++ cs) (lexemes.map (Lexeme.pushed offset (byteSize gap))) := by
  have hall : lexemes.map (Lexeme.pushed offset (byteSize gap)) =
      lexemes.map (Lexeme.later (byteSize gap)) := by
    refine List.map_congr_left fun l hl => ?_
    obtain ⟨_, _, -, hstart⟩ := h.exists_start hl
    exact if_pos (by omega)
  rw [hall]
  exact .separators hgap (h.later _)

/-! ### Putting in separators -/

/-- A token that ends in front of a place is a slice of the text in front of it. -/
theorem exists_slice_of_byteSize_le {width : Nat}
    (h : byteSize ((before ++ after).take width) ≤ byteSize before)
    (hle : width ≤ (before ++ after).length) :
    ∃ slice more, before = slice ++ more ∧ slice.length = width := by
  have hwidth : width ≤ before.length := by
    by_contra hlt
    obtain ⟨more, hmore⟩ : before <+: (before ++ after).take width :=
      List.prefix_of_prefix_length_le (List.prefix_append _ _) (List.take_prefix _ _)
        (by rw [List.length_take_of_le hle]; omega)
    have hne : more ≠ [] := by
      rintro rfl
      have hlength := congrArg List.length hmore
      rw [List.length_take_of_le hle, List.append_nil] at hlength
      omega
    have hpos := byteSize_pos hne
    rw [← hmore, byteSize_append] at h
    omega
  exact ⟨before.take width, before.drop width, (List.take_append_drop _ _).symm,
    List.length_take_of_le hwidth⟩

/-- A token that ends in front of separators is the one that was there without them. -/
theorem read?_insert {t : Token} {width : Nat} (h : read? (before ++ after) = some (t, width))
    (hle : width ≤ before.length) (hgap : ∀ c ∈ gap, isSeparator c = true) :
    read? (before ++ (gap ++ after)) = some (t, width) := by
  cases gap with
  | nil => exact h
  | cons c gap =>
    have hdelimits : Delimits (c :: gap ++ after) := by
      simpa [Delimits] using Or.inl (hgap c List.mem_cons_self)
    exact hdelimits.read?_append (read?_of_append h hle)

/-- **Separators change no lexeme** but for where it stands, if they are put in where none is torn
apart. -/
theorem Lexed.insert (h : Lexed offset (before ++ after) lexemes)
    (hbetween : ∀ l ∈ lexemes,
      l.stop ≤ offset + byteSize before ∨ offset + byteSize before ≤ l.start)
    (hgap : ∀ c ∈ gap, isSeparator c = true) :
    Lexed offset (before ++ (gap ++ after))
      (lexemes.map (Lexeme.pushed (offset + byteSize before) (byteSize gap))) := by
  generalize hcs : before ++ after = cs at h
  induction h generalizing before with
  | nil offset =>
    obtain ⟨rfl, rfl⟩ := List.append_eq_nil_iff.1 hcs
    exact (Lexed.nil offset).insert_front hgap
  | @separator offset c cs lexemes hc h ih =>
    cases before with
    | nil =>
      rw [List.nil_append] at hcs
      exact hcs ▸ (Lexed.separator hc h).insert_front hgap
    | cons d before =>
      obtain ⟨rfl, htail⟩ := List.cons.inj hcs
      have hplace : offset + byteSize (d :: before) = offset + d.utf8Size + byteSize before := by
        rw [byteSize, Nat.add_assoc]
      rw [hplace] at hbetween ⊢
      exact .separator hc (ih hbetween htail)
  | @token offset width cs t lexemes hread h ih =>
    subst hcs
    by_cases hfront : before = []
    · subst hfront
      exact (Lexed.token hread h).insert_front hgap
    obtain ⟨hfirst, hrest⟩ := List.forall_mem_cons.1 hbetween
    -- the place is behind this token, so all of it is in front of the place
    have hpos := byteSize_pos hfront
    have hbefore : byteSize ((before ++ after).take width) ≤ byteSize before := by
      rcases hfirst with hstop | hstart
      · exact Nat.le_of_add_le_add_left hstop
      · exact absurd hstart (by simp only; omega)
    obtain ⟨slice, more, rfl, rfl⟩ := exists_slice_of_byteSize_le hbefore (read?_width_le hread)
    have hread' := read?_insert hread (by simp) hgap
    simp only [List.append_assoc, List.take_left, List.drop_left, byteSize_append,
      ← Nat.add_assoc] at hread' hrest ih ⊢
    have hkept : Lexeme.pushed (offset + byteSize slice + byteSize more) (byteSize gap)
        ⟨t, offset, offset + byteSize slice⟩ = ⟨t, offset, offset + byteSize slice⟩ := by
      rw [byteSize_append] at hpos
      exact if_neg (by simp only; omega)
    rw [List.map_cons, hkept]
    exact (ih hrest rfl).append hread'

end Token

namespace Parser

/-- **Where lexemes stand** matters for nothing but the places of errors. -/
theorem run_map {f : Lexeme → Lexeme} {g : Nat → Nat} (htoken : ∀ l, (f l).token = l.token)
    (hstart : ∀ l, (f l).start = g l.start) (s : State) (stop : Nat) (lexemes : List Lexeme) :
    run s (g stop) (lexemes.map f) = (run s stop lexemes).mapError fun r => (g r.1, r.2) := by
  induction lexemes generalizing s with
  | nil =>
    rw [List.map_nil, run, run]
    cases finish s <;> rfl
  | cons l lexemes ih =>
    rw [List.map_cons, run, run, htoken, hstart]
    cases step s l.token with
    | error fault => rfl
    | ok s' => exact ih s'

theorem parse_of_run_error {text : String} {lexemes : List Lexeme} {offset : Nat} {fault : Fault}
    (h : Token.tokenize text = .ok lexemes)
    (hrun : run .start text.utf8ByteSize lexemes = .error (offset, fault)) :
    Expr.parse text = .error (.ofOffset text offset fault) := by
  rw [Expr.parse, h]
  simp only [hrun]

end Parser

/-! ### Separators in texts -/

namespace Token

variable {before gap after : String} {lexemes : List Lexeme}

/-- The offsets at which the tokens of a text start, and that at which the text ends. -/
def starts (text : String) (lexemes : List Lexeme) : List Nat :=
  lexemes.map Lexeme.start ++ [text.utf8ByteSize]

/-- Such an offset is between characters. -/
theorem isBoundary_of_mem_starts {text : String} {offset : Nat} (h : tokenize text = .ok lexemes)
    (hoffset : offset ∈ starts text lexemes) : Text.IsBoundary text offset := by
  rcases List.mem_append.1 hoffset with hstart | hend
  · obtain ⟨l, hl, rfl⟩ := List.mem_map.1 hstart
    exact isBoundary_start h hl
  · obtain rfl := List.mem_singleton.1 hend
    exact Text.isBoundary_end text

/-- The place of such an offset is at the offset. -/
theorem offset_locate_of_mem_starts {text : String} {offset : Nat}
    (h : tokenize text = .ok lexemes) (hoffset : offset ∈ starts text lexemes) :
    (Text.locate text offset).offset = offset :=
  (isBoundary_of_mem_starts h hoffset).offset_locate

/-- The parser finds errors where a token starts or the text ends. -/
theorem mem_starts_of_run {s : Parser.State} {text : String} {offset : Nat} {fault : Fault}
    (h : Parser.run s text.utf8ByteSize lexemes = .error (offset, fault)) :
    offset ∈ starts text lexemes := by
  rcases Parser.run_eq_error h with ⟨found, l, behind, s', rfl, rfl, -, -⟩ | ⟨s', rfl, -, -⟩
  · simp [starts]
  · simp [starts]

theorem utf8ByteSize_insert (before gap after : String) :
    (before ++ gap ++ after).utf8ByteSize =
      pushed before.utf8ByteSize gap.utf8ByteSize (before ++ after).utf8ByteSize := by
  simp only [String.utf8ByteSize_append, pushed]
  rw [if_pos (Nat.le_add_right _ _), Nat.add_right_comm]

theorem starts_insert (before gap after : String) (lexemes : List Lexeme) :
    starts (before ++ gap ++ after)
        (lexemes.map (Lexeme.pushed before.utf8ByteSize gap.utf8ByteSize)) =
      (starts (before ++ after) lexemes).map (pushed before.utf8ByteSize gap.utf8ByteSize) := by
  rw [starts, starts, utf8ByteSize_insert]
  simp

theorem tokenize_insert (h : tokenize (before ++ after) = .ok lexemes)
    (hbetween : ∀ l ∈ lexemes, l.stop ≤ before.utf8ByteSize ∨ before.utf8ByteSize ≤ l.start)
    (hgap : ∀ c ∈ gap.toList, isSeparator c = true) :
    tokenize (before ++ gap ++ after) =
      .ok (lexemes.map (Lexeme.pushed before.utf8ByteSize gap.utf8ByteSize)) := by
  rw [tokenize_eq_ok_iff, String.toList_append] at h
  rw [tokenize_eq_ok_iff, String.toList_append, String.toList_append, List.append_assoc]
  simp only [← byteSize_toList] at hbetween ⊢
  rw [← Nat.zero_add (byteSize before.toList)] at hbetween ⊢
  exact h.insert hbetween hgap

/-- **Separators between tokens are insignificant.** If some are put into a text with lexemes where
they tear no lexeme apart, then the tokens stay the same, and so does the expression or the fault and
the token at which it is found. -/
theorem separators_insignificant (h : tokenize (before ++ after) = .ok lexemes)
    (hbetween : ∀ l ∈ lexemes, l.stop ≤ before.utf8ByteSize ∨ before.utf8ByteSize ≤ l.start)
    (hgap : ∀ c ∈ gap.toList, isSeparator c = true) :
    ∃ lexemes', tokenize (before ++ gap ++ after) = .ok lexemes' ∧
      lexemes'.map Lexeme.token = lexemes.map Lexeme.token ∧
      (∀ e, Expr.parse (before ++ after) = .ok e → Expr.parse (before ++ gap ++ after) = .ok e) ∧
      ∀ error, Expr.parse (before ++ after) = .error error →
        ∃ error', Expr.parse (before ++ gap ++ after) = .error error' ∧
          error'.fault = error.fault ∧
          ∃ k : Nat, (starts (before ++ after) lexemes)[k]? = some error.place.offset ∧
            (starts (before ++ gap ++ after) lexemes')[k]? = some error'.place.offset := by
  have h' := tokenize_insert h hbetween hgap
  have htokens : (lexemes.map (Lexeme.pushed before.utf8ByteSize gap.utf8ByteSize)).map
      Lexeme.token = lexemes.map Lexeme.token := by simp
  refine ⟨_, h', htokens, ?_, ?_⟩
  · intro e he
    rw [Parser.parse_eq_ok_iff_reads h', htokens]
    exact (Parser.parse_eq_ok_iff_reads h).1 he
  · intro error herror
    obtain ⟨offset, fault, hrun, rfl⟩ := Grammar.exists_run_error h herror
    have hmoved := Parser.run_map
      (f := Lexeme.pushed before.utf8ByteSize gap.utf8ByteSize)
      (fun l => l.token_pushed _ _) (fun l => l.start_pushed _ _) .start
      (before ++ after).utf8ByteSize lexemes
    rw [hrun, ← utf8ByteSize_insert] at hmoved
    obtain ⟨k, hk⟩ := List.mem_iff_getElem?.1 (mem_starts_of_run hrun)
    have hk' : (starts (before ++ gap ++ after)
        (lexemes.map (Lexeme.pushed before.utf8ByteSize gap.utf8ByteSize)))[k]? =
          some (pushed before.utf8ByteSize gap.utf8ByteSize offset) := by
      rw [starts_insert, List.getElem?_map, hk]
      rfl
    refine ⟨_, Parser.parse_of_run_error h' hmoved, rfl, k, ?_, ?_⟩
    · rw [hk]
      exact congrArg some (offset_locate_of_mem_starts h (List.mem_of_getElem? hk)).symm
    · rw [hk']
      exact congrArg some (offset_locate_of_mem_starts h' (List.mem_of_getElem? hk')).symm

set_option maxRecDepth 2000 in
/-- A line break and more between a number and the join word that touches it, in a text whose
parenthesis is never closed. -/
theorem separators_insignificant_touching : ∃ lexemes,
    tokenize ("(\"a\"<=1" ++ "and\"é\"exists") = .ok lexemes ∧
    (∀ l ∈ lexemes, l.stop ≤ "(\"a\"<=1".utf8ByteSize ∨ "(\"a\"<=1".utf8ByteSize ≤ l.start) ∧
    (∀ c ∈ " \n\t".toList, isSeparator c = true) ∧
    ∃ lexemes', tokenize ("(\"a\"<=1" ++ " \n\t" ++ "and\"é\"exists") = .ok lexemes' ∧
      lexemes'.map Lexeme.token = lexemes.map Lexeme.token ∧
      (∀ e, Expr.parse ("(\"a\"<=1" ++ "and\"é\"exists") = .ok e →
        Expr.parse ("(\"a\"<=1" ++ " \n\t" ++ "and\"é\"exists") = .ok e) ∧
      ∀ error, Expr.parse ("(\"a\"<=1" ++ "and\"é\"exists") = .error error →
        ∃ error', Expr.parse ("(\"a\"<=1" ++ " \n\t" ++ "and\"é\"exists") = .error error' ∧
          error'.fault = error.fault ∧
          ∃ k : Nat, (starts ("(\"a\"<=1" ++ "and\"é\"exists") lexemes)[k]? =
              some error.place.offset ∧
            (starts ("(\"a\"<=1" ++ " \n\t" ++ "and\"é\"exists") lexemes')[k]? =
              some error'.place.offset := by
  have hlexemes : tokenize ("(\"a\"<=1" ++ "and\"é\"exists") = .ok
      [⟨.opening, 0, 1⟩, ⟨.string "a", 1, 4⟩, ⟨.operator .atMost, 4, 6⟩,
        ⟨.number (.integer 1 (by decide)), 6, 7⟩, ⟨.join .and, 7, 10⟩, ⟨.string "é", 10, 14⟩,
        ⟨.operator .present, 14, 20⟩] := rfl
  have hbetween : ∀ l ∈ [⟨.opening, 0, 1⟩, ⟨.string "a", 1, 4⟩, ⟨.operator .atMost, 4, 6⟩,
        ⟨.number (.integer 1 (by decide)), 6, 7⟩, ⟨.join .and, 7, 10⟩, ⟨.string "é", 10, 14⟩,
        (⟨.operator .present, 14, 20⟩ : Lexeme)],
      l.stop ≤ "(\"a\"<=1".utf8ByteSize ∨ "(\"a\"<=1".utf8ByteSize ≤ l.start := by decide
  have hgap : ∀ c ∈ " \n\t".toList, isSeparator c = true := by simp [isSeparator]
  exact ⟨_, hlexemes, hbetween, hgap, separators_insignificant hlexemes hbetween hgap⟩

end Token

end RecordFilter
