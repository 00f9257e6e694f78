import RecordFilter.Token.Lexer
import RecordFilter.Proofs.Numeral
import RecordFilter.Proofs.Text.Quoted

/-!
# What the lexer reads

`Lexed offset cs lexemes` describes the lexemes of characters without a loop: separators stand
for nothing, and a token is what `read?` finds in front of the rest. `tokenize_eq_ok_iff` says
that `tokenize` finds exactly these lexemes. How far the lexer comes in other texts is what
`Passes` says: to the end, or in front of a character at which it gets stuck (`exists_passes`). So
`tokenize` fails exactly where it gets stuck (`tokenize_eq_error_iff`).

Where the lexemes stand does not matter for what they are, so most arguments use `Spells cs ts`:
at whatever offset the characters `cs` stand, their tokens are `ts`.
-/

namespace RecordFilter.Token

/-! ### Lexemes and tokens of characters -/

/-- The lexemes of characters from a byte offset on. -/
inductive Lexed : Nat → List Char → List Lexeme → Prop where
  | nil (offset : Nat) : Lexed offset [] []
  | separator {offset : Nat} {c : Char} {cs : List Char} {lexemes : List Lexeme} :
      isSeparator c = true → Lexed (offset + c.utf8Size) cs lexemes →
      Lexed offset (c :: cs) lexemes
  | token {offset width : Nat} {cs : List Char} {t : Token} {lexemes : List Lexeme} :
      read? cs = some (t, width) →
      Lexed (offset + byteSize (cs.take width)) (cs.drop width) lexemes →
      Lexed offset cs (⟨t, offset, offset + byteSize (cs.take width)⟩ :: lexemes)

/-- The tokens of characters, wherever these stand. -/
def Spells (cs : List Char) (ts : List Token) : Prop :=
  ∀ offset, ∃ lexemes, Lexed offset cs lexemes ∧ lexemes.map Lexeme.token = ts

theorem Lexed.spells {offset : Nat} {cs : List Char} {lexemes : List Lexeme}
    (h : Lexed offset cs lexemes) : Spells cs (lexemes.map Lexeme.token) := by
  induction h with
  | nil => exact fun offset => ⟨[], .nil offset, rfl⟩
  | separator hc _ ih =>
    intro offset
    obtain ⟨lexemes, hl, hts⟩ := ih (offset + _)
    exact ⟨lexemes, .separator hc hl, hts⟩
  | token hr _ ih =>
    intro offset
    obtain ⟨lexemes, hl, hts⟩ := ih (offset + _)
    exact ⟨_, .token hr hl, by rw [List.map_cons, List.map_cons, hts]⟩

theorem Spells.nil : Spells [] [] := fun offset => ⟨[], .nil offset, rfl⟩

theorem Spells.separator {c : Char} {cs : List Char} {ts : List Token}
    (hc : isSeparator c = true) (h : Spells cs ts) : Spells (c :: cs) ts := by
  intro offset
  obtain ⟨lexemes, hl, hts⟩ := h (offset + c.utf8Size)
  exact ⟨lexemes, .separator hc hl, hts⟩

/-- A token in front of characters with lexemes. -/
theorem Lexed.append {offset : Nat} {slice rest : List Char} {t : Token} {lexemes : List Lexeme}
    (hr : read? (slice ++ rest) = some (t, slice.length))
    (h : Lexed (offset + byteSize slice) rest lexemes) :
    Lexed offset (slice ++ rest) (⟨t, offset, offset + byteSize slice⟩ :: lexemes) := by
  have htoken : Lexed offset (slice ++ rest)
      (⟨t, offset, offset + byteSize ((slice ++ rest).take slice.length)⟩ :: lexemes) :=
    .token hr (by rwa [List.take_left, List.drop_left])
  rwa [List.take_left] at htoken

/-- A written token in front of characters with known tokens. -/
theorem Spells.append (cs : List Char) {rest : List Char} {t : Token} {ts : List Token}
    (hr : read? (cs ++ rest) = some (t, cs.length)) (h : Spells rest ts) :
    Spells (cs ++ rest) (t :: ts) := by
  intro offset
  obtain ⟨lexemes, hl, hts⟩ := h (offset + byteSize cs)
  exact ⟨_, hl.append hr, by rw [List.map_cons, hts]⟩

/-! ### The lexer -/

theorem readWord?_width_pos {cs : List Char} {t : Token} {width : Nat}
    (h : readWord? cs = some (t, width)) : 0 < width := by
  unfold readWord? at h
  split at h
  · simp at h
  · split at h
    · obtain ⟨-, rfl⟩ := Prod.mk.inj (Option.some.inj h)
      omega
    · simp at h

theorem readSign?_width_pos {cs : List Char} {t : Token} {width : Nat}
    (h : readSign? cs = some (t, width)) : 0 < width := by
  unfold readSign? at h
  split at h <;> simp at h <;> omega

theorem readSign?_width_le {cs : List Char} {t : Token} {width : Nat}
    (h : readSign? cs = some (t, width)) : width ≤ cs.length := by
  unfold readSign? at h
  split at h <;> simp at h <;> simp [← h.2]

theorem readWord?_width_le {cs : List Char} {t : Token} {width : Nat}
    (h : readWord? cs = some (t, width)) : width ≤ cs.length := by
  unfold readWord? at h
  split at h
  · simp at h
  · rename_i c cs
    have hpart := (List.takeWhile_prefix isWordPart (l := cs)).length_le
    split at h
    · obtain ⟨-, rfl⟩ := Prod.mk.inj (Option.some.inj h)
      simpa using hpart
    · simp at h

/-- A token is a sign, a quoted text, a number or a bare word. -/
theorem read?_cases {cs : List Char} {t : Token} {width : Nat} (h : read? cs = some (t, width)) :
    readSign? cs = some (t, width) ∨
    (∃ content, Text.readQuoted? cs = some (content, width) ∧
      t = .string (String.ofList content)) ∨
    (∃ n, readNumber? cs = some (n, width) ∧ t = .number n) ∨
    readWord? cs = some (t, width) := by
  unfold read? at h
  split at h
  · rename_i hsign
    exact .inl (hsign.trans h)
  · split at h
    · rename_i content _ hquoted
      obtain ⟨rfl, rfl⟩ := Prod.mk.inj (Option.some.inj h)
      exact .inr (.inl ⟨content, hquoted, rfl⟩)
    · split at h
      · rename_i n _ hnumber
        obtain ⟨rfl, rfl⟩ := Prod.mk.inj (Option.some.inj h)
        exact .inr (.inr (.inl ⟨n, hnumber, rfl⟩))
      · exact .inr (.inr (.inr h))

/-- Every token takes a character at least. -/
theorem read?_width_pos {cs : List Char} {t : Token} {width : Nat}
    (h : read? cs = some (t, width)) : 0 < width := by
  rcases read?_cases h with hsign | ⟨_, hquoted, -⟩ | ⟨_, hnumber, -⟩ | hword
  · exact readSign?_width_pos hsign
  · exact Text.readQuoted?_width_pos hquoted
  · exact readNumber?_width_pos hnumber
  · exact readWord?_width_pos hword

/-- No token takes more characters than there are. -/
theorem read?_width_le {cs : List Char} {t : Token} {width : Nat}
    (h : read? cs = some (t, width)) : width ≤ cs.length := by
  rcases read?_cases h with hsign | ⟨_, hquoted, -⟩ | ⟨_, hnumber, -⟩ | hword
  · exact readSign?_width_le hsign
  · exact Text.readQuoted?_width_le hquoted
  · exact readNumber?_width_le hnumber
  · exact readWord?_width_le hword

/-- Without characters there is no token. -/
theorem read?_nil : read? [] = none := rfl

/-- No token starts with a separator. -/
theorem read?_separator {c : Char} (hc : isSeparator c = true) (cs : List Char) :
    read? (c :: cs) = none := by
  simp only [isSeparator, Bool.or_eq_true, beq_iff_eq] at hc
  have hword : isWordStart c = false := by
    rcases hc with ((rfl | rfl) | rfl) | rfl <;> decide +kernel
  rcases hc with ((rfl | rfl) | rfl) | rfl <;>
    simp [read?, readSign?, Text.readQuoted?, readNumber?, Numeral.scan?, Numeral.scanUnsigned?,
      Numeral.digits, readWord?, hword]

theorem not_isSeparator_of_read? {c : Char} {cs : List Char} {r : Token × Nat}
    (h : read? (c :: cs) = some r) : isSeparator c = false := by
  rw [Bool.eq_false_iff]
  intro hc
  rw [read?_separator hc] at h
  simp at h

/-! ### Inversion -/

theorem Lexed.of_separator {offset : Nat} {c : Char} {cs : List Char} {lexemes : List Lexeme}
    (h : Lexed offset (c :: cs) lexemes) (hc : isSeparator c = true) :
    Lexed (offset + c.utf8Size) cs lexemes := by
  cases h with
  | separator _ h => exact h
  | token hr _ => simp [read?_separator hc] at hr

/-- The token in front is the first lexeme. -/
theorem Lexed.of_read? {offset width : Nat} {cs : List Char} {t : Token} {lexemes : List Lexeme}
    (h : Lexed offset cs lexemes) (hr : read? cs = some (t, width)) :
    ∃ rest, Lexed (offset + byteSize (cs.take width)) (cs.drop width) rest ∧
      lexemes = ⟨t, offset, offset + byteSize (cs.take width)⟩ :: rest := by
  cases h with
  | nil => simp [read?_nil] at hr
  | separator hc _ => simp [read?_separator hc] at hr
  | token hr' h =>
    obtain ⟨rfl, rfl⟩ := Prod.mk.inj (Option.some.inj (hr.symm.trans hr'))
    exact ⟨_, h, rfl⟩

theorem Spells.eq_nil {ts : List Token} (h : Spells [] ts) : ts = [] := by
  obtain ⟨lexemes, hl, rfl⟩ := h 0
  cases hl with
  | nil => rfl
  | token hr _ => simp [read?_nil] at hr

theorem Spells.of_separator {c : Char} {cs : List Char} {ts : List Token}
    (h : Spells (c :: cs) ts) (hc : isSeparator c = true) : Spells cs ts := by
  obtain ⟨lexemes, hl, rfl⟩ := h 0
  exact (hl.of_separator hc).spells

/-- The token in front is the first one. -/
theorem Spells.of_append {cs rest : List Char} {t : Token} {ts : List Token}
    (h : Spells (cs ++ rest) ts) (hr : read? (cs ++ rest) = some (t, cs.length)) :
    ∃ ts', Spells rest ts' ∧ ts = t :: ts' := by
  obtain ⟨lexemes, hl, rfl⟩ := h 0
  obtain ⟨lexemes', hl', rfl⟩ := hl.of_read? hr
  rw [List.drop_left] at hl'
  exact ⟨_, hl'.spells, rfl⟩

/-- Characters with tokens start with a separator or with a token. -/
theorem Spells.exists_read? {c : Char} {cs : List Char} {ts : List Token}
    (h : Spells (c :: cs) ts) : isSeparator c = true ∨ ∃ r, read? (c :: cs) = some r := by
  obtain ⟨lexemes, hl, -⟩ := h 0
  cases hl with
  | separator hc _ => exact .inl hc
  | token hr _ => exact .inr ⟨_, hr⟩

/-! ### The loop -/

/-- Characters that belong to the last lexeme are passed over. -/
theorem lexFrom_skip (found : List Lexeme) (offset skip : Nat) (cs : List Char) :
    lexFrom found offset skip cs =
      lexFrom found (offset + byteSize (cs.take skip)) 0 (cs.drop skip) := by
  induction cs generalizing offset skip with
  | nil => simp [lexFrom]
  | cons c cs ih =>
    cases skip with
    | zero => simp [byteSize]
    | succ skip =>
      rw [lexFrom, ih, List.drop_succ_cons, List.take_succ_cons]
      simp [byteSize, Nat.add_assoc]

/-- One token is taken: the lexer goes on behind it. -/
theorem lexFrom_token {cs : List Char} {t : Token} {width : Nat} (h : read? cs = some (t, width))
    (found : List Lexeme) (offset : Nat) :
    lexFrom found offset 0 cs =
      lexFrom (⟨t, offset, offset + byteSize (cs.take width)⟩ :: found)
        (offset + byteSize (cs.take width)) 0 (cs.drop width) := by
  obtain ⟨width, rfl⟩ : ∃ w, width = w + 1 := ⟨width - 1, by have := read?_width_pos h; omega⟩
  cases cs with
  | nil => simp [read?_nil] at h
  | cons c cs =>
    rw [lexFrom, if_neg (by simp [not_isSeparator_of_read? h]), h]
    simp only [Nat.add_sub_cancel]
    rw [lexFrom_skip, List.drop_succ_cons, List.take_succ_cons]
    simp [byteSize, Nat.add_assoc]

/-- From an offset on, the lexer takes lexemes and separators from the front of the characters, and
comes to the offset of the rest of them. -/
inductive Passes : Nat → List Char → List Lexeme → Nat → List Char → Prop where
  | here (offset : Nat) (cs : List Char) : Passes offset cs [] offset cs
  | separator {offset stop : Nat} {c : Char} {cs rest : List Char} {lexemes : List Lexeme} :
      isSeparator c = true → Passes (offset + c.utf8Size) cs lexemes stop rest →
      Passes offset (c :: cs) lexemes stop rest
  | token {offset stop width : Nat} {cs rest : List Char} {t : Token} {lexemes : List Lexeme} :
      read? cs = some (t, width) →
      Passes (offset + byteSize (cs.take width)) (cs.drop width) lexemes stop rest →
      Passes offset cs (⟨t, offset, offset + byteSize (cs.take width)⟩ :: lexemes) stop rest

variable {offset stop : Nat} {cs rest : List Char} {lexemes : List Lexeme}

/-- The characters have lexemes if the lexer comes to their end. -/
theorem lexed_iff_passes : Lexed offset cs lexemes ↔ ∃ stop, Passes offset cs lexemes stop [] := by
  constructor
  · intro h
    induction h with
    | nil offset => exact ⟨offset, .here offset []⟩
    | separator hc _ ih =>
      obtain ⟨stop, hpasses⟩ := ih
      exact ⟨stop, .separator hc hpasses⟩
    | token hr _ ih =>
      obtain ⟨stop, hpasses⟩ := ih
      exact ⟨stop, .token hr hpasses⟩
  · rintro ⟨stop, h⟩
    generalize hrest : [] = rest at h
    induction h with
    | here offset =>
      subst hrest
      exact .nil offset
    | separator hc _ ih => exact .separator hc (ih hrest)
    | token hr _ ih => exact .token hr (ih hrest)

/-- The lexer comes to the end of the characters, or in front of one at which it gets stuck. -/
theorem exists_passes (offset : Nat) (cs : List Char) :
    ∃ lexemes stop rest, Passes offset cs lexemes stop rest ∧
      ∀ c ∈ rest.head?, isSeparator c = false ∧ read? rest = none := by
  -- on the number of characters: each token takes some, and the lexer goes on behind it
  induction hn : cs.length using Nat.strongRecOn generalizing offset cs with
  | ind n ih =>
    subst hn
    cases cs with
    | nil => exact ⟨[], offset, [], .here offset [], by simp⟩
    | cons c cs =>
      by_cases hc : isSeparator c = true
      · obtain ⟨lexemes, stop, rest, hpasses, hstuck⟩ := ih _ (by simp) (offset + c.utf8Size) cs rfl
        exact ⟨lexemes, stop, rest, .separator hc hpasses, hstuck⟩
      · cases hr : read? (c :: cs) with
        | none =>
          refine ⟨[], offset, c :: cs, .here offset _, fun c' hc' => ?_⟩
          obtain rfl := Option.some.inj hc'
          exact ⟨Bool.eq_false_iff.2 hc, hr⟩
        | some r =>
          obtain ⟨t, width⟩ := r
          have hpos := read?_width_pos hr
          obtain ⟨lexemes, stop, rest, hpasses, hstuck⟩ :=
            ih ((c :: cs).drop width).length (by rw [List.length_drop]; simp; omega) _ _ rfl
          exact ⟨_, stop, rest, .token hr hpasses, hstuck⟩

/-- The lexer goes on at the rest. -/
theorem lexFrom_of_passes (h : Passes offset cs lexemes stop rest) (found : List Lexeme) :
    lexFrom found offset 0 cs = lexFrom (lexemes.reverse ++ found) stop 0 rest := by
  induction h generalizing found with
  | here => rfl
  | separator hc _ ih => rw [lexFrom, if_pos hc, ih]
  | token hr _ ih => rw [lexFrom_token hr, ih, List.reverse_cons, List.append_assoc]; rfl

theorem tokenize_of_passes {text : String} (h : Passes 0 text.toList lexemes stop []) :
    tokenize text = .ok lexemes := by
  rw [tokenize, lexFrom_of_passes h]
  simp [lexFrom]

theorem tokenize_of_stuck {text : String} {c : Char}
    (h : Passes 0 text.toList lexemes stop (c :: rest)) (hc : isSeparator c = false)
    (hr : read? (c :: rest) = none) :
    tokenize text = .error (.ofOffset text stop (faultAt c)) := by
  rw [tokenize, lexFrom_of_passes h, lexFrom, if_neg (Bool.eq_false_iff.1 hc), hr]

/-- **The lexer finds the lexemes**: `tokenize` succeeds exactly on the texts that have lexemes,
and finds these. -/
theorem tokenize_eq_ok_iff {text : String} :
    tokenize text = .ok lexemes ↔ Lexed 0 text.toList lexemes := by
  rw [lexed_iff_passes]
  constructor
  · intro h
    obtain ⟨lexemes', stop, rest, hpasses, hstuck⟩ := exists_passes 0 text.toList
    cases rest with
    | nil =>
      rw [tokenize_of_passes hpasses] at h
      exact ⟨stop, Except.ok.inj h ▸ hpasses⟩
    | cons c rest =>
      obtain ⟨hc, hr⟩ := hstuck c rfl
      rw [tokenize_of_stuck hpasses hc hr] at h
      simp at h
  · rintro ⟨stop, hpasses⟩
    exact tokenize_of_passes hpasses

/-- At an offset of a text the lexer stands in front of a character that is no separator and
starts no token. -/
def IsStuckAt (text : String) (offset : Nat) (c : Char) : Prop :=
  ∃ lexemes rest, Passes 0 text.toList lexemes offset (c :: rest) ∧ isSeparator c = false ∧
    read? (c :: rest) = none

/-- **A text without lexemes is one in which the lexer gets stuck**, and its error is there. -/
theorem tokenize_eq_error_iff {text : String} {e : SyntaxError} :
    tokenize text = .error e ↔
      ∃ stop c, IsStuckAt text stop c ∧ e = .ofOffset text stop (faultAt c) := by
  constructor
  · intro h
    obtain ⟨lexemes, stop, rest, hpasses, hstuck⟩ := exists_passes 0 text.toList
    cases rest with
    | nil =>
      rw [tokenize_of_passes hpasses] at h
      simp at h
    | cons c rest =>
      obtain ⟨hc, hr⟩ := hstuck c rfl
      rw [tokenize_of_stuck hpasses hc hr] at h
      exact ⟨stop, c, ⟨lexemes, rest, hpasses, hc, hr⟩, (Except.error.inj h).symm⟩
  · rintro ⟨stop, c, ⟨lexemes, rest, hpasses, hc, hr⟩, rfl⟩
    exact tokenize_of_stuck hpasses hc hr

theorem Spells.exists_tokenize {text : String} {ts : List Token} (h : Spells text.toList ts) :
    ∃ lexemes, tokenize text = .ok lexemes ∧ lexemes.map Lexeme.token = ts := by
  obtain ⟨lexemes, hl, hts⟩ := h 0
  exact ⟨lexemes, tokenize_eq_ok_iff.2 hl, hts⟩

end RecordFilter.Token
