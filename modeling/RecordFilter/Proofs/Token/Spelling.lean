import Mathlib.Data.List.Forall2
import RecordFilter.Proofs.Token.Lexing

/-!
# Written tokens are read back

`Writes cs ts`: the characters `cs` spell the tokens `ts`, and whatever the printers put behind
them takes no part in that. Behind a word, a sign or an integer something must stand that does not
continue it, and `Delimits` is all that is ever put there: a separator, a closing parenthesis, or
the end of the text. Each kind of token is written by its printed form (`writes_quote`,
`writes_integerText`, `writes_word`, `writes_symbol`), and written pieces are put together with
spaces, join words and parentheses (`Writes.space`, `Writes.join`, `Writes.intercalate`,
`Writes.parenthesised`).
-/

namespace RecordFilter.Token

/-- What may stand behind a written token: a separator, a closing parenthesis, or nothing. -/
def Delimits (rest : List Char) : Prop := ∀ c ∈ rest.head?, isSeparator c = true ∨ c = ')'

theorem delimits_nil : Delimits [] := by simp [Delimits]

theorem delimits_space (cs : List Char) : Delimits (' ' :: cs) := by
  simp [Delimits, isSeparator]

theorem delimits_closing (cs : List Char) : Delimits (')' :: cs) := by simp [Delimits]

/-- The characters that may stand behind a written token. -/
def delimiters : List Char := [' ', '\t', '\r', '\n', ')']

theorem Delimits.mem_delimiters {rest : List Char} (h : Delimits rest) {c : Char}
    (hc : c ∈ rest.head?) : c ∈ delimiters := by
  have hcases := h c hc
  simp only [isSeparator, Bool.or_eq_true, beq_iff_eq] at hcases
  simpa [delimiters, or_assoc] using hcases

theorem Delimits.isWordPart_eq_false {rest : List Char} (h : Delimits rest) :
    ∀ c ∈ rest.head?, isWordPart c = false := by
  intro c hc
  have hall : delimiters.all (fun c => !isWordPart c) = true := by decide +kernel
  simpa using List.all_eq_true.1 hall c (h.mem_delimiters hc)

theorem Delimits.ends {rest : List Char} (h : Delimits rest) : Numeral.Ends rest := by
  intro c hc
  have hall : delimiters.all
      (fun c => !c.isDigit && (c != '.' && (c != 'e' && c != 'E'))) = true := by decide
  simpa using List.all_eq_true.1 hall c (h.mem_delimiters hc)

theorem Delimits.ne_equal {rest : List Char} (h : Delimits rest) : ∀ cs, rest ≠ '=' :: cs := by
  rintro cs rfl
  have hmem := h.mem_delimiters (c := '=') (by simp)
  exact absurd hmem (by decide)

/-! ### Bare words -/

/-- What is true of ten characters is true of digits. -/
theorem of_isDigit {p : Char → Prop} (hall : ∀ n < 58, 48 ≤ n → p (Char.ofNat n)) {c : Char}
    (h : c.isDigit = true) : p c := by
  have hrange : 48 ≤ c.toNat ∧ c.toNat ≤ 57 := by
    simpa [Char.isDigit, UInt32.le_iff_toNat_le] using h
  simpa [Char.ofNat_toNat] using hall c.toNat (by omega) hrange.1

theorem isWordStart_digit {c : Char} (h : c.isDigit = true) : isWordStart c = false := by
  have hall : ∀ n < 58, 48 ≤ n → isWordStart (Char.ofNat n) = false := by decide +kernel
  exact of_isDigit (p := (isWordStart · = false)) hall h

/-- The characters that signs and quoted texts start with. -/
def markers : List Char := ['=', '!', '<', '>', '(', ')', '"']

/-- Without a marker in front there is neither a sign nor a quoted text. -/
theorem read?_of_not_marker {c : Char} (h : c ∉ markers) (cs : List Char) :
    read? (c :: cs) =
      match readNumber? (c :: cs) with
      | some (n, width) => some (.number n, width)
      | none => readWord? (c :: cs) := by
  simp only [markers, List.mem_cons, List.not_mem_nil, or_false, not_or] at h
  obtain ⟨h1, h2, h3, h4, h5, h6, hquote⟩ := h
  have hsign : readSign? (c :: cs) = none := by simp [readSign?, h1, h2, h3, h4, h5, h6]
  have hquoted : Text.readQuoted? (c :: cs) = none := by simp [Text.readQuoted?, hquote]
  cases hnumber : readNumber? (c :: cs) with
  | none => simp only [read?, hsign, hquoted, hnumber]
  | some r => simp only [read?, hsign, hquoted, hnumber]

theorem not_marker_of_isWordStart {c : Char} (h : isWordStart c = true) : c ∉ markers := by
  have hall : markers.all (fun c => !isWordStart c) = true := by decide +kernel
  intro hmem
  have hnone := List.all_eq_true.1 hall c hmem
  simp [h] at hnone

/-- A character that starts a word starts no number. -/
theorem readNumber?_of_isWordStart {c : Char} (h : isWordStart c = true) (cs : List Char) :
    readNumber? (c :: cs) = none := by
  refine readNumber?_eq_none ?_ ?_ cs
  · rintro rfl
    exact absurd h (by decide +kernel)
  · rw [Bool.eq_false_iff]
    intro hdigit
    simp [isWordStart_digit hdigit] at h

theorem read?_of_isWordStart {c : Char} (h : isWordStart c = true) (cs : List Char) :
    read? (c :: cs) = readWord? (c :: cs) := by
  rw [read?_of_not_marker (not_marker_of_isWordStart h), readNumber?_of_isWordStart h]

/-- A word ends where no character continues it. -/
theorem read?_word {c : Char} {cs rest : List Char} (hc : isWordStart c = true)
    (hcs : ∀ d ∈ cs, isWordPart d = true) (hrest : ∀ d ∈ rest.head?, isWordPart d = false) :
    read? (c :: cs ++ rest) = some (ofWord (String.ofList (c :: cs)), (c :: cs).length) := by
  rw [List.cons_append, read?_of_isWordStart hc, readWord?, if_pos hc]
  simp only [takeWhile_append_of_head hrest, List.takeWhile_eq_self_iff.2 hcs, List.length_cons]

/-! ### Numbers -/

theorem readNumber?_marker {c : Char} (h : c ∈ markers) (cs : List Char) :
    readNumber? (c :: cs) = none := by
  have hall : markers.all (fun c => c != '-' && !c.isDigit) = true := by decide
  obtain ⟨hminus, hdigit⟩ : c ≠ '-' ∧ c.isDigit = false := by
    simpa using List.all_eq_true.1 hall c h
  exact readNumber?_eq_none hminus hdigit cs

/-- A number in front is the token there. -/
theorem read?_of_readNumber? {cs : List Char} {n : Number} {width : Nat}
    (h : readNumber? cs = some (n, width)) : read? cs = some (.number n, width) := by
  obtain ⟨c, hc, -⟩ := head_of_readNumber? h
  obtain ⟨cs, rfl⟩ := List.head?_eq_some_iff.1 hc
  have hmarker : c ∉ markers := by
    intro hmem
    rw [readNumber?_marker hmem] at h
    simp at h
  rw [read?_of_not_marker hmarker, h]

/-! ### Written pieces -/

/-- Characters that spell tokens in front of everything that delimits them. -/
def Writes (cs : List Char) (ts : List Token) : Prop :=
  ∀ (rest : List Char) (ts' : List Token), Delimits rest → Spells rest ts' →
    Spells (cs ++ rest) (ts ++ ts')

theorem writes_of_read? {cs : List Char} {t : Token}
    (h : ∀ rest, Delimits rest → read? (cs ++ rest) = some (t, cs.length)) : Writes cs [t] :=
  fun _ _ hrest hspells => Spells.append cs (h _ hrest) hspells

theorem writes_nil : Writes [] [] := fun _ _ _ hspells => hspells

theorem Writes.spells {cs : List Char} {ts : List Token} (h : Writes cs ts) : Spells cs ts := by
  have hspells := h [] [] delimits_nil Spells.nil
  rwa [List.append_nil, List.append_nil] at hspells

/-- Pieces with a space between them. -/
theorem Writes.space {cs cs' : List Char} {ts ts' : List Token} (h : Writes cs ts)
    (h' : Writes cs' ts') : Writes (cs ++ ' ' :: cs') (ts ++ ts') := by
  intro rest ts'' hrest hspells
  rw [List.append_assoc, List.append_assoc]
  exact h _ _ (delimits_space _) (Spells.separator rfl (h' _ _ hrest hspells))

/-- A piece in parentheses. -/
theorem Writes.parenthesised {cs : List Char} {ts : List Token} (h : Writes cs ts) :
    Writes ('(' :: (cs ++ [')'])) (.opening :: (ts ++ [.closing])) := by
  intro rest ts' _ hspells
  have hclosing : Spells (')' :: rest) (.closing :: ts') := Spells.append [')'] rfl hspells
  have hinside := h _ _ (delimits_closing rest) hclosing
  have hopening : Spells ('(' :: (cs ++ ')' :: rest)) (.opening :: (ts ++ .closing :: ts')) :=
    Spells.append ['('] rfl hinside
  simpa using hopening

/-! ### The tokens of the language -/

theorem read?_quoteChars (cs rest : List Char) :
    read? (Text.quoteChars cs ++ rest) =
      some (.string (String.ofList cs), (Text.quoteChars cs).length) := by
  have hquoted := Text.readQuoted?_quoteChars cs rest
  have hsign : readSign? (Text.quoteChars cs ++ rest) = none := rfl
  simp only [read?, hsign, hquoted]

theorem read?_text_quote (s : String) (rest : List Char) :
    read? ((Text.quote s).toList ++ rest) = some (.string s, (Text.quote s).toList.length) := by
  rw [Text.quote, String.toList_ofList, read?_quoteChars, String.ofList_toList]

theorem writes_quote (s : String) : Writes (Text.quote s).toList [.string s] :=
  writes_of_read? fun rest _ => read?_text_quote s rest

theorem writes_integerText {n : Int} (fits : -0x8000000000000000 ≤ n ∧ n < 0x10000000000000000) :
    Writes (integerText n).toList [.number (.integer n fits)] :=
  writes_of_read? fun _ hrest => read?_of_readNumber? (readNumber?_integerText fits hrest.ends)

/-- A word writes the token that it is. -/
theorem writes_word {w : String} {c : Char} {cs : List Char} (hw : w.toList = c :: cs)
    (hc : isWordStart c = true) (hcs : cs.all isWordPart = true) :
    Writes w.toList [ofWord w] := by
  refine writes_of_read? fun rest hrest => ?_
  rw [hw, read?_word hc (List.all_eq_true.1 hcs) hrest.isWordPart_eq_false, ← hw,
    String.ofList_toList]

theorem writes_boolean (b : Bool) :
    Writes (if b then "true" else "false").toList [.boolean b] := by
  cases b with
  | true => exact writes_word (w := "true") rfl (by decide +kernel) (by decide +kernel)
  | false => exact writes_word (w := "false") rfl (by decide +kernel) (by decide +kernel)

theorem writes_joinWord (j : Join) : Writes j.word.toList [.join j] := by
  cases j with
  | and => exact writes_word (w := "and") rfl (by decide +kernel) (by decide +kernel)
  | or => exact writes_word (w := "or") rfl (by decide +kernel) (by decide +kernel)

/-- The sign `<` is read as such unless `=` follows. -/
theorem read?_less {rest : List Char} (hrest : Delimits rest) :
    read? ('<' :: rest) = some (.operator .less, 1) := by
  have hsign : readSign? ('<' :: rest) = some (.operator .less, 1) := by
    unfold readSign?
    split <;> simp_all [hrest.ne_equal]
  simp only [read?, hsign]

/-- The sign `>` is read as such unless `=` follows. -/
theorem read?_greater {rest : List Char} (hrest : Delimits rest) :
    read? ('>' :: rest) = some (.operator .greater, 1) := by
  have hsign : readSign? ('>' :: rest) = some (.operator .greater, 1) := by
    unfold readSign?
    split <;> simp_all [hrest.ne_equal]
  simp only [read?, hsign]

theorem writes_symbol (op : Operator) : Writes op.symbol.toList [.operator op] := by
  cases op with
  | is => exact writes_word (w := "is") rfl (by decide +kernel) (by decide +kernel)
  | present => exact writes_word (w := "exists") rfl (by decide +kernel) (by decide +kernel)
  | missing => exact writes_word (w := "missing") rfl (by decide +kernel) (by decide +kernel)
  | contains => exact writes_word (w := "contain") rfl (by decide +kernel) (by decide +kernel)
  | lacks => exact writes_word (w := "notcontain") rfl (by decide +kernel) (by decide +kernel)
  -- these two signs start others, so what follows them matters
  | less => exact writes_of_read? fun _ hrest => read?_less hrest
  | greater => exact writes_of_read? fun _ hrest => read?_greater hrest
  | equal | notEqual | atMost | atLeast => exact writes_of_read? fun _ _ => rfl

/-! ### Joined pieces -/

/-- Tokens with a join word between them. -/
def joined (j : Join) (tss : List (List Token)) : List Token := [.join j].intercalate tss

/-- The separator that printers put between the members of a group. -/
def joinText (j : Join) : String := " " ++ j.word ++ " "

/-- Pieces with a join word between them. -/
theorem Writes.join {cs cs' : List Char} {ts ts' : List Token} (j : Join) (h : Writes cs ts)
    (h' : Writes cs' ts') :
    Writes (cs ++ (joinText j).toList ++ cs') (ts ++ .join j :: ts') := by
  have hform : cs ++ (joinText j).toList ++ cs' = cs ++ ' ' :: (j.word.toList ++ ' ' :: cs') := by
    simp [joinText]
  rw [hform]
  exact h.space ((writes_joinWord j).space h')

/-- Texts with a join word between each two of them. -/
theorem Writes.intercalate (j : Join) {texts : List String} {tss : List (List Token)}
    (h : List.Forall₂ (fun text ts => Writes text.toList ts) texts tss) :
    Writes ((joinText j).intercalate texts).toList (joined j tss) := by
  induction h with
  | nil => exact writes_nil
  | cons hfirst hrest ih =>
    cases hrest with
    | nil => simpa [joined] using hfirst
    | cons _ _ =>
      have hjoined := hfirst.join j ih
      simpa [joined, String.toList_intercalate] using hjoined

end RecordFilter.Token
