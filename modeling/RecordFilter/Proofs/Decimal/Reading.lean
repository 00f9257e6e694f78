import RecordFilter.Decimal.Reading
import RecordFilter.Proofs.Numeral.Spelling

/-!
# The grammar of written numbers

Which characters are read as a number, and as which one. An integer is digits behind an optional
sign (`readInteger?_ten_eq_some_iff`). A decimal is digits with a point in front of, among or
behind them, or without one, and an exponent (`Decimal.IsSpelling`); with an optional sign in
front, or as a word for an infinity or a NaN, it is read as a number of the format
(`Binary64.isSome_ofText?_iff`).
-/

namespace RecordFilter

open Numeral (IsDigits)

/-! ### Digits -/

/-- The digits in base ten are the ten of ASCII. -/
theorem digit_eq (c : Char) (n : Nat) :
    (match Text.hexValue? c with
      | some d => if d < 10 then some (n * 10 + d) else none
      | none => none) =
      if c.isDigit then some (Nat.ofDigitChars 10 [c] n) else none := by
  have hdigit : c.isDigit = true ↔ '0' ≤ c ∧ c ≤ '9' := by
    simp [Char.isDigit, Char.le_def]
  have hle {d : Char} (h : d ≤ c) : d.toNat ≤ c.toNat := UInt32.le_iff_toNat_le.1 (Char.le_def.1 h)
  have hge {d : Char} (h : c ≤ d) : c.toNat ≤ d.toNat := UInt32.le_iff_toNat_le.1 (Char.le_def.1 h)
  rw [Text.hexValue?]
  by_cases h : '0' ≤ c ∧ c ≤ '9'
  · have hlow := hle h.1
    have hhigh := hge h.2
    have hvalue : c.toNat - 48 < 10 := by
      have hnine : '9'.toNat = 57 := rfl
      omega
    simp only [if_pos h, if_pos hvalue, if_pos (hdigit.2 h), Nat.ofDigitChars_cons,
      Nat.ofDigitChars_nil, Nat.mul_comm 10]
    rfl
  · -- the letters stand for ten and more
    rw [if_neg h, if_neg (mt hdigit.1 h)]
    by_cases hlower : 'a' ≤ c ∧ c ≤ 'f'
    · have hlow : 97 ≤ c.toNat := hle hlower.1
      rw [if_pos hlower]
      exact if_neg (by omega)
    · rw [if_neg hlower]
      by_cases hupper : 'A' ≤ c ∧ c ≤ 'F'
      · have hlow : 65 ≤ c.toNat := hle hupper.1
        rw [if_pos hupper]
        exact if_neg (by omega)
      · rw [if_neg hupper]

/-- Digits are read as the number that they denote, and nothing else is read. -/
theorem readDigitsIn?_ten_eq_some_iff {cs : List Char} {n : Nat} :
    readDigitsIn? 10 cs = some n ↔ IsDigits cs ∧ Nat.ofDigitChars 10 cs 0 = n := by
  have hfold (start : Nat) : cs.foldlM (fun n c =>
      match Text.hexValue? c with
      | some d => if d < 10 then some (n * 10 + d) else none
      | none => none) start = some n ↔
        (∀ c ∈ cs, c.isDigit = true) ∧ Nat.ofDigitChars 10 cs start = n := by
    induction cs generalizing start with
    | nil => simp
    | cons c cs ih =>
      rw [List.foldlM_cons, digit_eq, Option.bind_eq_bind]
      by_cases hc : c.isDigit = true
      · rw [if_pos hc, Option.bind_some, ih]
        simp [hc, Nat.ofDigitChars_cons]
      · simp [hc]
  cases cs with
  | nil => simp [readDigitsIn?, IsDigits]
  | cons c cs =>
    rw [IsDigits, and_iff_right (List.cons_ne_nil c cs), ← hfold 0]
    rfl

/-! ### Signs -/

/-- A sign or none, and whether it is a minus. -/
inductive IsSign : List Char → Bool → Prop where
  | absent : IsSign [] false
  | plus : IsSign ['+'] false
  | minus : IsSign ['-'] true

/-- There is no sign at the front. -/
def Unsigned (cs : List Char) : Prop := ∀ c ∈ cs.head?, c ≠ '-' ∧ c ≠ '+'

theorem exists_isSign (cs : List Char) :
    ∃ sign, IsSign sign (readSign cs).1 ∧ cs = sign ++ (readSign cs).2 := by
  unfold readSign
  split
  · exact ⟨['-'], .minus, rfl⟩
  · exact ⟨['+'], .plus, rfl⟩
  · exact ⟨[], .absent, rfl⟩

theorem IsSign.readSign_append {sign body : List Char} {negative : Bool} (h : IsSign sign negative)
    (hbody : Unsigned body) : readSign (sign ++ body) = (negative, body) := by
  cases h with
  | plus | minus => rfl
  | absent =>
    rw [List.nil_append]
    unfold readSign
    split
    · exact absurd rfl (hbody '-' rfl).1
    · exact absurd rfl (hbody '+' rfl).2
    · rfl

theorem unsigned_of_isDigits {ds : List Char} (h : IsDigits ds) (rest : List Char) :
    Unsigned (ds ++ rest) := by
  obtain ⟨d, ds, rfl⟩ := List.exists_cons_of_ne_nil h.1
  have hd : d.isDigit = true := h.2 d List.mem_cons_self
  simp only [Unsigned, List.cons_append, List.head?_cons, Option.mem_some_iff, forall_eq']
  constructor <;> rintro rfl <;> simp at hd

/-! ### Integers -/

/-- **Integers are digits** behind an optional sign. -/
theorem readInteger?_ten_eq_some_iff {cs : List Char} {n : Int} :
    readInteger? 10 cs = some n ↔ ∃ sign ds negative, cs = sign ++ ds ∧ IsSign sign negative ∧
      IsDigits ds ∧ n = (if negative then -(Nat.ofDigitChars 10 ds 0 : Int) else
        (Nat.ofDigitChars 10 ds 0 : Nat)) ∧ -0x8000000000000000 ≤ n ∧ n < 0x8000000000000000 := by
  constructor
  · intro h
    obtain ⟨sign, hsign, hcs⟩ := exists_isSign cs
    unfold readInteger? at h
    cases hdigits : readDigitsIn? 10 (readSign cs).2 with
    | none => simp [hdigits] at h
    | some m =>
      obtain ⟨hds, rfl⟩ := readDigitsIn?_ten_eq_some_iff.1 hdigits
      simp only [hdigits, Option.ite_none_right_eq_some, Option.some.injEq] at h
      obtain ⟨hrange, rfl⟩ := h
      exact ⟨sign, _, _, hcs, hsign, hds, rfl, hrange⟩
  · rintro ⟨sign, ds, negative, rfl, hsign, hds, rfl, hrange⟩
    have hunsigned : Unsigned ds := by simpa using unsigned_of_isDigits hds []
    have hread := hsign.readSign_append hunsigned
    have hdigits := readDigitsIn?_ten_eq_some_iff.2 ⟨hds, rfl⟩
    simp only [readInteger?, hread, hdigits]
    exact if_pos hrange

/-! ### Decimals -/

namespace Decimal

/-- The characters of an exponent, or none, and the power of ten for which they stand. -/
inductive IsPower : List Char → Int → Prop where
  | absent : IsPower [] 0
  | exponent {mark : Char} {sign ds : List Char} {negative : Bool} : mark = 'e' ∨ mark = 'E' →
      IsSign sign negative → IsDigits ds →
      IsPower (mark :: (sign ++ ds))
        (if negative then -(Nat.ofDigitChars 10 ds 0 : Int) else (Nat.ofDigitChars 10 ds 0 : Nat))

/-- The characters of a decimal without a sign, and its digits with the power of ten that belongs to
the last of them. -/
inductive IsSpelling : List Char → Decimal → Prop where
  | integral {ds power : List Char} {exponent : Int} : IsDigits ds → IsPower power exponent →
      IsSpelling (ds ++ power) ⟨Nat.ofDigitChars 10 ds 0, exponent⟩
  /-- The point may stand in front of all digits or behind them. -/
  | pointed {whole fraction power : List Char} {exponent : Int} : IsDigits (whole ++ fraction) →
      IsPower power exponent →
      IsSpelling (whole ++ '.' :: (fraction ++ power))
        ⟨Nat.ofDigitChars 10 (whole ++ fraction) 0, exponent - fraction.length⟩

variable {cs power : List Char} {exponent : Int} {d : Decimal}

theorem readPower?_eq_some_iff : readPower? power = some exponent ↔ IsPower power exponent := by
  constructor
  · intro h
    cases power with
    | nil =>
      obtain rfl := Option.some.inj h
      exact .absent
    | cons mark cs =>
      obtain ⟨sign, hsign, hcs⟩ := exists_isSign cs
      simp only [readPower?, Option.ite_none_right_eq_some, Option.map_eq_some_iff,
        Option.bind_eq_bind, Option.bind_eq_some_iff, Option.pure_def, Option.some.injEq] at h
      obtain ⟨hmark, _, ⟨n, hn, rfl⟩, rfl⟩ := h
      obtain ⟨hds, rfl⟩ := readDigitsIn?_ten_eq_some_iff.1 hn
      have hpower := IsPower.exponent hmark hsign hds
      rwa [← hcs] at hpower
  · intro h
    cases h with
    | absent => rfl
    | exponent hmark hsign hds =>
      have hread := hsign.readSign_append (by simpa using unsigned_of_isDigits hds [])
      simp only [readPower?, if_pos hmark, hread, readDigitsIn?_ten_eq_some_iff.2 ⟨hds, rfl⟩]
      rfl

/-- An exponent continues no digits, and has no point. -/
theorem IsPower.head (h : IsPower power exponent) :
    ∀ c ∈ power.head?, c.isDigit = false ∧ c ≠ '.' := by
  cases h with
  | absent => simp
  | exponent hmark =>
    simp only [List.head?_cons, Option.mem_some_iff, forall_eq']
    rcases hmark with rfl | rfl <;> decide

/-- The digits behind a point at the front, if there is one, and what is behind them. -/
def cut (cs : List Char) : List Char × List Char :=
  match cs with
  | '.' :: more => (more.takeWhile Char.isDigit, more.dropWhile Char.isDigit)
  | _ => ([], cs)

theorem cut_of_head {cs : List Char} (h : ∀ c ∈ cs.head?, c ≠ '.') : cut cs = ([], cs) := by
  unfold cut
  split
  · exact absurd rfl (h '.' rfl)
  · rfl

theorem ofChars?_eq (cs : List Char) : ofChars? cs =
    let whole := cs.takeWhile Char.isDigit
    match readDigitsIn? 10 (whole ++ (cut (cs.drop whole.length)).1),
      readPower? (cut (cs.drop whole.length)).2 with
    | some digits, some power => some ⟨digits, power - (cut (cs.drop whole.length)).1.length⟩
    | _, _ => none := rfl

/-- Digits are taken as far as nothing continues them. -/
theorem dropWhile_isDigit {ds rest : List Char} (hds : ∀ c ∈ ds, c.isDigit = true)
    (hrest : ∀ c ∈ rest.head?, c.isDigit = false) :
    (ds ++ rest).dropWhile Char.isDigit = rest := by
  have hall := List.takeWhile_append_dropWhile (p := Char.isDigit) (l := ds ++ rest)
  rw [show (ds ++ rest).takeWhile Char.isDigit = ds from Numeral.digits_append_of_head hds hrest]
    at hall
  exact List.append_cancel_left hall

/-- **Decimals are read** as what they are, and nothing else is. -/
theorem ofChars?_eq_some_iff : ofChars? cs = some d ↔ IsSpelling cs d := by
  constructor
  · intro h
    have hsplit := List.prefix_iff_eq_append.1 (List.takeWhile_prefix Char.isDigit (l := cs))
    rw [ofChars?_eq] at h
    simp only at h
    generalize cs.takeWhile Char.isDigit = whole at h hsplit
    generalize cs.drop whole.length = behind at h hsplit
    subst hsplit
    split at h
    · rename_i digits power hdigits hpower
      obtain rfl := Option.some.inj h
      obtain ⟨hds, rfl⟩ := readDigitsIn?_ten_eq_some_iff.1 hdigits
      rw [readPower?_eq_some_iff] at hpower
      by_cases hpoint : ∀ c ∈ behind.head?, c ≠ '.'
      · rw [cut_of_head hpoint] at hds hpower ⊢
        simpa using IsSpelling.integral (by simpa using hds) hpower
      · obtain ⟨more, rfl⟩ : ∃ more, behind = '.' :: more := by
          simpa [← List.head?_eq_some_iff] using hpoint
        have hspelling := IsSpelling.pointed hds hpower
        rwa [cut, List.takeWhile_append_dropWhile] at hspelling
    · simp at h
  · intro h
    rw [ofChars?_eq]
    cases h with
    | @integral ds power exponent hds hpower =>
      have hwhole : (ds ++ power).takeWhile Char.isDigit = ds :=
        Numeral.digits_append_of_head hds.2 fun c hc => (hpower.head c hc).1
      have hcut := cut_of_head fun c hc => (hpower.head c hc).2
      simp only [hwhole, List.drop_left, hcut, List.append_nil,
        readDigitsIn?_ten_eq_some_iff.2 ⟨hds, rfl⟩, readPower?_eq_some_iff.2 hpower]
      simp
    | @pointed whole fraction power exponent hds hpower =>
      have hwhole : (whole ++ '.' :: (fraction ++ power)).takeWhile Char.isDigit = whole :=
        Numeral.digits_append_of_head (fun c hc => hds.2 c (List.mem_append_left _ hc)) (by simp)
      have hfraction : (fraction ++ power).takeWhile Char.isDigit = fraction :=
        Numeral.digits_append_of_head (fun c hc => hds.2 c (List.mem_append_right whole hc))
          fun c hc => (hpower.head c hc).1
      have hrest := dropWhile_isDigit (fun c hc => hds.2 c (List.mem_append_right whole hc))
        fun c hc => (hpower.head c hc).1
      simp only [hwhole, List.drop_left, cut, hfraction, hrest,
        readDigitsIn?_ten_eq_some_iff.2 ⟨hds, rfl⟩, readPower?_eq_some_iff.2 hpower]

/-- A decimal starts with a digit or a point. -/
theorem IsSpelling.head (h : IsSpelling cs d) : ∃ c ∈ cs.head?, c.isDigit = true ∨ c = '.' := by
  cases h with
  | @integral ds power exponent hds hpower =>
    obtain ⟨c, ds, rfl⟩ := List.exists_cons_of_ne_nil hds.1
    exact ⟨c, rfl, .inl (hds.2 c List.mem_cons_self)⟩
  | @pointed whole fraction power exponent hds hpower =>
    cases whole with
    | nil => exact ⟨'.', rfl, .inr rfl⟩
    | cons c whole => exact ⟨c, rfl, .inl (hds.2 c List.mem_cons_self)⟩

end Decimal

/-! ### Numbers of the format -/

namespace Binary64

/-- A word for an infinity or a NaN, in any case. -/
def IsWord (cs : List Char) : Prop :=
  String.ofList (cs.map Char.toLower) ∈ ["inf", "infinity", "nan"]

/-- The characters of a number behind its sign: a word, or a decimal. -/
def IsUnsignedText (cs : List Char) : Prop := IsWord cs ∨ ∃ d, Decimal.IsSpelling cs d

/-- The text of a number: a word or a decimal behind an optional sign. -/
def IsText (text : String) : Prop :=
  ∃ sign body negative, text.toList = sign ++ body ∧ IsSign sign negative ∧ IsUnsignedText body

variable {negative : Bool} {cs : List Char}

theorem isSome_ofWord?_iff : (ofWord? negative cs).isSome = true ↔ IsWord cs := by
  unfold ofWord? IsWord
  split <;> simp_all

/-- A word starts with a letter. -/
theorem IsWord.head (h : IsWord cs) : ∃ c ∈ cs.head?, c.toLower = 'i' ∨ c.toLower = 'n' := by
  cases cs with
  | nil => simp [IsWord] at h
  | cons c cs =>
    refine ⟨c, rfl, ?_⟩
    simp only [IsWord, List.mem_cons, List.not_mem_nil, or_false, ← String.toList_inj,
      String.toList_ofList, List.map_cons] at h
    rcases h with h | h | h
    · exact .inl (List.cons.inj h).1
    · exact .inl (List.cons.inj h).1
    · exact .inr (List.cons.inj h).1

/-- Digits and points have no case. -/
theorem toLower_eq_self {c : Char} (h : c.isDigit = true ∨ c = '.') : c.toLower = c := by
  rcases h with h | rfl
  · simp only [Char.isDigit, Bool.and_eq_true, decide_eq_true_eq, UInt32.le_iff_toNat_le] at h
    unfold Char.toLower
    refine dif_neg fun hupper => ?_
    have hletter := UInt32.le_iff_toNat_le.1 hupper.1
    have hnine : 57 < 'A'.val.toNat := by decide
    exact absurd (hletter.trans h.2) (Nat.not_le.2 hnine)
  · rfl

/-- A decimal is no word. -/
theorem not_isWord_of_isSpelling {d : Decimal} (h : Decimal.IsSpelling cs d) : ¬IsWord cs := by
  intro hword
  obtain ⟨c, hc, hdigit⟩ := h.head
  obtain ⟨c', hc', hletter⟩ := hword.head
  obtain rfl : c = c' := Option.some.inj (hc.symm.trans hc')
  rw [toLower_eq_self hdigit] at hletter
  rcases hletter with rfl | rfl <;> simp at hdigit

theorem IsUnsignedText.unsigned (h : IsUnsignedText cs) : Unsigned cs := by
  intro c hc
  rcases h with hword | ⟨d, hspelling⟩
  · obtain ⟨c', hc', hletter⟩ := hword.head
    obtain rfl : c = c' := Option.some.inj (hc.symm.trans hc')
    constructor <;> rintro rfl <;> simp at hletter
  · obtain ⟨c', hc', hdigit⟩ := hspelling.head
    obtain rfl : c = c' := Option.some.inj (hc.symm.trans hc')
    constructor <;> rintro rfl <;> simp at hdigit

/-- A decimal behind a sign is read as the number nearest to it. -/
theorem ofText?_of_isSpelling {text : String} {sign : List Char} {d : Decimal}
    (htext : text.toList = sign ++ cs) (hsign : IsSign sign negative)
    (h : Decimal.IsSpelling cs d) : ofText? text = some (d.nearest negative) := by
  have hunsigned : IsUnsignedText cs := .inr ⟨d, h⟩
  have hnone : ofWord? negative cs = none := by
    rw [← Option.not_isSome_iff_eq_none, isSome_ofWord?_iff]
    exact not_isWord_of_isSpelling h
  rw [ofText?, htext, hsign.readSign_append hunsigned.unsigned]
  simp only [hnone, Decimal.ofChars?_eq_some_iff.2 h, Option.map_some]

/-- **Numbers of the format are words and decimals**, with an optional sign in front. -/
theorem isSome_ofText?_iff {text : String} : (ofText? text).isSome = true ↔ IsText text := by
  constructor
  · intro h
    obtain ⟨sign, hsign, htext⟩ := exists_isSign text.toList
    refine ⟨sign, _, _, htext, hsign, ?_⟩
    rw [ofText?] at h
    simp only at h
    split at h
    · rename_i hword
      exact .inl (isSome_ofWord?_iff.1 (Option.isSome_iff_exists.2 ⟨_, hword⟩))
    · rw [Option.isSome_map, Option.isSome_iff_exists] at h
      obtain ⟨d, hd⟩ := h
      exact .inr ⟨d, Decimal.ofChars?_eq_some_iff.1 hd⟩
  · rintro ⟨sign, body, negative, htext, hsign, hbody⟩
    rcases id hbody with hword | ⟨d, hspelling⟩
    · obtain ⟨x, hx⟩ :=
        Option.isSome_iff_exists.1 (isSome_ofWord?_iff.2 hword : (ofWord? negative body).isSome)
      rw [ofText?, htext, hsign.readSign_append hbody.unsigned]
      simp only [hx, Option.isSome_some]
    · rw [ofText?_of_isSpelling htext hsign hspelling]
      rfl

/-- An integer is a decimal. -/
theorem isText_of_readInteger? {text : String} {n : Int}
    (h : readInteger? 10 text.toList = some n) : IsText text := by
  obtain ⟨sign, ds, negative, htext, hsign, hds, -⟩ := readInteger?_ten_eq_some_iff.1 h
  have hspelling := Decimal.IsSpelling.integral hds .absent
  rw [List.append_nil] at hspelling
  exact ⟨sign, ds, negative, htext, hsign, .inr ⟨_, hspelling⟩⟩

/-- The text of a number starts with a sign, a digit, a point, or the first letter of a word. -/
theorem IsText.head {text : String} (h : IsText text) :
    ∃ c ∈ text.toList.head?, c.toLower ∈ ['+', '-', '.', 'i', 'n'] ∨ c.isDigit = true := by
  obtain ⟨sign, body, negative, htext, hsign, hbody⟩ := h
  rw [htext]
  cases hsign with
  | plus | minus => exact ⟨_, rfl, .inl (by decide)⟩
  | absent =>
    rw [List.nil_append]
    rcases hbody with hword | ⟨d, hspelling⟩
    · obtain ⟨c, hc, hletter⟩ := hword.head
      exact ⟨c, hc, .inl (by rcases hletter with hletter | hletter <;> simp [hletter])⟩
    · obtain ⟨c, hc, hdigit | rfl⟩ := hspelling.head
      · exact ⟨c, hc, .inr hdigit⟩
      · exact ⟨_, hc, .inl (by decide)⟩

end Binary64

end RecordFilter
