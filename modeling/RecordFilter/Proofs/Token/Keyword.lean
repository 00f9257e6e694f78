import RecordFilter.Proofs.Token.Extent
import RecordFilter.Proofs.Token.Offset

/-!
# Where keywords begin and end

A keyword is a bare word, and a word is a longest run, so nothing behind a keyword continues it. In
front of it is a separator, or a token that touches it (`Lexed.exists_front`). Signs and quoted texts
end with characters that no word has, and a word would not have ended there. Only a number ends with a
character that words may have, so a number is all that can stand in the way of a keyword that is
delimited on both sides (`keyword_delimited_iff`): `1and` is a number and a keyword.
-/

namespace RecordFilter.Token

variable {cs slice rest : List Char} {t : Token} {width : Nat}

/-- Whether a token is written as a keyword: a join word, a boolean, or an operator that is a word. -/
def isKeyword : Token → Bool
  | join _ | boolean _ => true
  | operator op =>
    match op with
    | .is | .present | .missing | .contains | .lacks => true
    | _ => false
  | _ => false

/-- A keyword is read as a bare word. -/
theorem readWord?_of_isKeyword (h : read? cs = some (t, width)) (ht : t.isKeyword = true) :
    readWord? cs = some (t, width) := by
  rcases read?_cases h with hsign | ⟨_, -, rfl⟩ | ⟨_, -, rfl⟩ | hword
  · unfold readSign? at hsign
    split at hsign <;> simp at hsign <;> simp [← hsign.1, isKeyword] at ht
  · simp [isKeyword] at ht
  · simp [isKeyword] at ht
  · exact hword

/-- A bare word is all that continues its first character. -/
theorem exists_of_readWord? (h : readWord? (slice ++ rest) = some (t, slice.length)) :
    (∃ c ∈ slice.head?, isWordStart c = true) ∧ ofWord (String.ofList slice) = t ∧
      ∀ d ∈ rest.head?, isWordPart d = false := by
  cases slice with
  | nil => exact absurd (readWord?_width_pos h) (Nat.lt_irrefl 0)
  | cons c cs =>
    rw [List.cons_append, readWord?] at h
    split at h
    · rename_i hstart
      obtain ⟨ht, hlength⟩ := Prod.mk.inj (Option.some.inj h)
      have hwhole : (cs ++ rest).takeWhile isWordPart = cs :=
        (List.prefix_of_prefix_length_le (List.takeWhile_prefix _) (List.prefix_append cs rest)
          (Nat.le_of_succ_le_succ hlength.le)).eq_of_length (Nat.succ.inj hlength)
      rw [hwhole] at ht
      refine ⟨⟨c, rfl, hstart⟩, ht, fun d hd => ?_⟩
      have hcs : ∀ e ∈ cs, isWordPart e = true := by
        intro e he
        rw [← hwhole] at he
        exact List.mem_takeWhile_imp he
      rw [List.takeWhile_append_of_pos hcs, List.append_right_eq_self] at hwhole
      obtain ⟨more, rfl⟩ := List.head?_eq_some_iff.1 hd
      by_contra hpart
      simp [List.takeWhile_cons, hpart] at hwhole
    · simp at h

/-! ### Last characters of tokens -/

theorem isWordPart_digit {c : Char} (h : c.isDigit = true) : isWordPart c = true := by
  have hall : ∀ n < 58, 48 ≤ n → isWordPart (Char.ofNat n) = true := by decide +kernel
  exact of_isDigit (p := (isWordPart · = true)) hall h

theorem isWordPart_separator {c : Char} (h : isSeparator c = true) : isWordPart c = false := by
  simp only [isSeparator, Bool.or_eq_true, beq_iff_eq] at h
  rcases h with ((rfl | rfl) | rfl) | rfl <;> decide +kernel

theorem isWordPart_marker {c : Char} (h : c ∈ markers) : isWordPart c = false := by
  have hall : markers.all (fun c => !isWordPart c) = true := by decide +kernel
  simpa using List.all_eq_true.1 hall c h

theorem isWordPart_of_isWordStart {c : Char} (h : isWordStart c = true) : isWordPart c = true := by
  simp only [isWordStart, isWordPart, Text.isAlphanumeric, Bool.or_eq_true] at h ⊢
  exact h.imp_left Or.inl

/-- A sign is made of markers. -/
theorem mem_markers_of_readSign? (h : readSign? cs = some (t, width)) :
    ∀ c ∈ (cs.take width).getLast?, c ∈ markers := by
  unfold readSign? at h
  split at h <;> simp at h <;> simp [← h.2, markers]

/-- **Only numbers end as words do**: of the tokens in front of a word that touches them, exactly the
numbers end with a character that words may have, and that is a digit. -/
theorem last_wordPart_iff (h : read? (slice ++ rest) = some (t, slice.length))
    (hrest : ∃ c ∈ rest.head?, isWordStart c = true) :
    (∀ c ∈ slice.getLast?, isWordPart c = true → c.isDigit = true) ∧
      ((∀ c ∈ slice.getLast?, isWordPart c = false) ↔ ¬∃ n, t = .number n) := by
  have hmarker (hlast : ∀ c ∈ slice.getLast?, c ∈ markers) (ht : ¬∃ n, t = .number n) :
      (∀ c ∈ slice.getLast?, isWordPart c = true → c.isDigit = true) ∧
        ((∀ c ∈ slice.getLast?, isWordPart c = false) ↔ ¬∃ n, t = .number n) := by
    have hnone : ∀ c ∈ slice.getLast?, isWordPart c = false :=
      fun c hc => isWordPart_marker (hlast c hc)
    exact ⟨fun c hc hpart => by simp [hnone c hc] at hpart, iff_of_true hnone ht⟩
  rcases read?_cases h with hsign | ⟨content, hquoted, rfl⟩ | ⟨n, hnumber, rfl⟩ | hword
  · have hlast := mem_markers_of_readSign? hsign
    rw [List.take_left] at hlast
    refine hmarker hlast ?_
    rintro ⟨n, rfl⟩
    unfold readSign? at hsign
    split at hsign <;> simp at hsign
  · obtain ⟨body, behind, hform, hwidth, -⟩ := Text.exists_of_readQuoted? hquoted
    have hslice : slice = '"' :: body ++ ['"'] := by
      refine List.append_inj_left (hform.trans (by simp : _ = '"' :: body ++ ['"'] ++ behind)) ?_
      simp [hwidth]
    refine hmarker ?_ (by simp)
    rw [hslice, List.getLast?_concat]
    simp [markers]
  · unfold readNumber? at hnumber
    split at hnumber
    · simp at hnumber
    · rename_i numeral more hscan
      obtain ⟨number, -, hr⟩ := Option.map_eq_some_iff.1 hnumber
      obtain ⟨-, rfl⟩ := Prod.mk.inj hr
      obtain ⟨d, hd, hdigit⟩ := Numeral.endsInDigit_scan? hscan
      rw [List.take_left] at hd
      have hsame : ∀ c ∈ slice.getLast?, c = d := fun c hc => Option.mem_unique hc hd
      refine ⟨fun c hc _ => hsame c hc ▸ hdigit, iff_of_false (fun hall => ?_) (by simp)⟩
      simpa [isWordPart_digit hdigit] using hall d hd
  · -- a word would have gone on
    obtain ⟨c, hc, hstart⟩ := hrest
    obtain ⟨-, -, hends⟩ := exists_of_readWord? hword
    simpa [isWordPart_of_isWordStart hstart] using hends c hc

/-! ### What stands in front -/

/-- In front of a lexeme there are separators, or the lexeme before it touches it. -/
theorem Lexed.exists_front {offset : Nat} {found behind : List Lexeme} {l : Lexeme}
    (h : Lexed offset cs (found ++ l :: behind)) :
    ∃ front slice rest, cs = front ++ (slice ++ rest) ∧ l.start = offset + byteSize front ∧
      l.stop = l.start + byteSize slice ∧ read? (slice ++ rest) = some (l.token, slice.length) ∧
      ((∀ c ∈ front.getLast?, isSeparator c = true) ∧ (∀ l' ∈ found.getLast?, l'.stop ≠ l.start) ∨
        ∃ l' slice', found.getLast? = some l' ∧ l'.stop = l.start ∧
          front.getLast? = slice'.getLast? ∧
          read? (slice' ++ (slice ++ rest)) = some (l'.token, slice'.length)) := by
  rcases found.eq_nil_or_concat with rfl | ⟨init, l', rfl⟩
  · obtain ⟨gap, slice, rest, rfl, hgap, hread, hstart, hstop, -⟩ := h.of_cons
    refine ⟨gap, slice, rest, rfl, hstart, hstop, hread, .inl ⟨fun c hc => ?_, by simp⟩⟩
    exact hgap c (List.mem_of_getLast? hc)
  · rw [List.concat_eq_append, List.append_assoc] at h
    obtain ⟨before, slice', behind', rfl, hread', hstart', hstop', hrest⟩ := h.exists_slice
    obtain ⟨gap, slice, rest, rfl, hgap, hread, hstart, hstop, -⟩ := hrest.of_cons
    refine ⟨before ++ (slice' ++ gap), slice, rest, by simp, ?_, hstop, hread, ?_⟩
    · rw [hstart, hstop', hstart', byteSize_append, byteSize_append, Nat.add_assoc, Nat.add_assoc]
    · rcases gap.eq_nil_or_concat with rfl | ⟨more, c, rfl⟩
      · have hne : slice' ≠ [] := List.ne_nil_of_length_pos (read?_width_pos hread')
        refine .inr ⟨l', slice', by simp, hstart.symm, ?_, hread'⟩
        rw [List.append_nil, List.getLast?_append_of_ne_nil _ hne]
      · refine .inl ⟨?_, ?_⟩
        · simpa using hgap c (by simp)
        · have hpos : 0 < byteSize (more.concat c) := byteSize_pos (by simp)
          intro l'' hl''
          obtain rfl : l' = l'' := by simpa using hl''
          omega

/-! ### Keywords -/

/-- **A keyword is delimited unless a number touches it.** Its characters are a word of the text that
no character behind continues. The character in front is no letter and no underscore, and it is no
digit either, except where a number ends at the keyword. -/
theorem keyword_delimited_iff {text : String} {found behind : List Lexeme} {l : Lexeme}
    (h : tokenize text = .ok (found ++ l :: behind)) (hl : l.token.isKeyword = true) :
    ∃ front word rest, text.toList = front ++ (word ++ rest) ∧ byteSize front = l.start ∧
      byteSize (front ++ word) = l.stop ∧ ofWord (String.ofList word) = l.token ∧
      (∀ c ∈ rest.head?, isWordPart c = false) ∧
      (∀ c ∈ front.getLast?, isWordPart c = true → c.isDigit = true) ∧
      ((∀ c ∈ front.getLast?, isWordPart c = false) ↔
        ¬∃ l' n, found.getLast? = some l' ∧ l'.token = .number n ∧ l'.stop = l.start) := by
  obtain ⟨front, word, rest, htext, hstart, hstop, hread, hfront⟩ :=
    (tokenize_eq_ok_iff.1 h).exists_front
  obtain ⟨⟨c, hc, hword⟩, htoken, hends⟩ := exists_of_readWord? (readWord?_of_isKeyword hread hl)
  rw [Nat.zero_add] at hstart
  refine ⟨front, word, rest, htext, hstart.symm, ?_, htoken, hends, ?_⟩
  · rw [byteSize_append, ← hstart, hstop]
  rcases hfront with ⟨hseparators, hapart⟩ | ⟨l', slice', hlast, htouch, hsame, hread'⟩
  · have hnone : ∀ c ∈ front.getLast?, isWordPart c = false :=
      fun c hc => isWordPart_separator (hseparators c hc)
    refine ⟨fun c hc hpart => by simp [hnone c hc] at hpart, iff_of_true hnone ?_⟩
    rintro ⟨l', n, hl', -, hstop'⟩
    exact hapart l' hl' hstop'
  · have hbehind : ∃ c ∈ (word ++ rest).head?, isWordStart c = true :=
      ⟨c, by simp [List.head?_append, Option.mem_def.1 hc], hword⟩
    obtain ⟨hdigit, hiff⟩ := last_wordPart_iff hread' hbehind
    rw [hsame]
    refine ⟨hdigit, hiff.trans (not_congr ⟨?_, ?_⟩)⟩
    · rintro ⟨n, hn⟩
      exact ⟨l', n, hlast, hn, htouch⟩
    · rintro ⟨l'', n, hl'', hn, -⟩
      obtain rfl := Option.some.inj (hlast.symm.trans hl'')
      exact ⟨n, hn⟩

set_option maxRecDepth 2000 in
/-- A join word that the number in front of it touches. -/
theorem keyword_delimited_iff_touched : ∃ found l behind,
    tokenize "\"a\" == 1and \"b\" == 2" = .ok (found ++ l :: behind) ∧
    l.token.isKeyword = true ∧ l = ⟨.join .and, 8, 11⟩ ∧
    ∃ front word rest, "\"a\" == 1and \"b\" == 2".toList = front ++ (word ++ rest) ∧
      byteSize front = l.start ∧ byteSize (front ++ word) = l.stop ∧
      ofWord (String.ofList word) = l.token ∧ ¬∀ c ∈ front.getLast?, isWordPart c = false := by
  have htokens : tokenize "\"a\" == 1and \"b\" == 2" = .ok
      ([⟨.string "a", 0, 3⟩, ⟨.operator .equal, 4, 6⟩, ⟨.number (.integer 1 (by decide)), 7, 8⟩] ++
        ⟨.join .and, 8, 11⟩ :: [⟨.string "b", 12, 15⟩, ⟨.operator .equal, 16, 18⟩,
          ⟨.number (.integer 2 (by decide)), 19, 20⟩]) := rfl
  obtain ⟨front, word, rest, htext, hstart, hstop, hword, -, -, hiff⟩ :=
    keyword_delimited_iff htokens rfl
  refine ⟨_, _, _, htokens, rfl, rfl, front, word, rest, htext, hstart, hstop, hword, fun hall => ?_⟩
  exact hiff.1 hall ⟨_, _, rfl, rfl, rfl⟩

end RecordFilter.Token
