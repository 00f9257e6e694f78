import RecordFilter.Text.Quoted

/-!
# The grammar of quoted text

A string literal is content between two quotes, and content is a row of pieces that stand for one
character each: the character itself, an escape letter behind a backslash, a UTF-16 unit in four
hexadecimal digits, or two such units that are a surrogate pair. `readBody?_eq_some_iff` says that
reading accepts exactly the content in front of a quote and finds the characters that it stands for;
everything else about quoted text follows from it. No piece has a quote that ends it early
(`readBody?_piece`), so there is one way at most to read a string literal off the front.
-/

namespace RecordFilter.Text

/-! ### Pieces of content -/

/-- A hexadecimal digit of either case and its value. -/
def IsHexDigit (d : Char) (value : Nat) : Prop :=
  "0123456789abcdef".toList[value]? = some d ∨ "0123456789ABCDEF".toList[value]? = some d

/-- Four hexadecimal digits and the 16-bit unit that they denote. -/
def IsUnit (a b c d : Char) (unit : Nat) : Prop :=
  ∃ p q r s, IsHexDigit a p ∧ IsHexDigit b q ∧ IsHexDigit c r ∧ IsHexDigit d s ∧
    unit = ((p * 16 + q) * 16 + r) * 16 + s

/-- The letters behind a backslash, each with the character that it stands for. -/
def escapeLetters : List (Char × Char) :=
  [('"', '"'), ('\\', '\\'), ('/', '/'), ('b', '\x08'), ('f', '\x0c'), ('n', '\n'), ('r', '\r'),
    ('t', '\t')]

/-- A piece of content and the character for which it stands. -/
inductive Piece : List Char → Char → Prop where
  /-- A character stands for itself unless it is a control character, a quote or a backslash. -/
  | itself {c : Char} : 0x20 ≤ c.toNat → c ≠ '"' → c ≠ '\\' → Piece [c] c
  | letter {letter c : Char} : (letter, c) ∈ escapeLetters → Piece ['\\', letter] c
  /-- A unit that is a character, and so no half of a surrogate pair. -/
  | unit {a b c d x : Char} : IsUnit a b c d x.toNat → Piece ['\\', 'u', a, b, c, d] x
  | pair {a b c d a' b' c' d' x : Char} {high low : Nat} : IsUnit a b c d high →
      IsUnit a' b' c' d' low → 0xd800 ≤ high → high < 0xdc00 → 0xdc00 ≤ low → low < 0xe000 →
      x.toNat = 0x10000 + (high - 0xd800) * 0x400 + (low - 0xdc00) →
      Piece ['\\', 'u', a, b, c, d, '\\', 'u', a', b', c', d'] x

/-- What stands between the quotes, and the characters for which it stands. -/
inductive Content : List Char → List Char → Prop where
  | nil : Content [] []
  | cons {piece body cs : List Char} {c : Char} : Piece piece c → Content body cs →
      Content (piece ++ body) (c :: cs)

/-- A string literal, its quotes included, and the characters for which it stands. -/
def IsStringLiteral (raw content : List Char) : Prop :=
  ∃ body, raw = '"' :: (body ++ ['"']) ∧ Content body content

/-! ### Digits and letters -/

theorem toNat_lt_of_hexValue? {d : Char} {value : Nat} (h : hexValue? d = some value) :
    d.toNat < 103 := by
  have hle {c : Char} (hc : d ≤ c) (hlt : c.toNat < 103) : d.toNat < 103 :=
    Nat.lt_of_le_of_lt (UInt32.le_iff_toNat_le.1 (Char.le_def.1 hc)) hlt
  unfold hexValue? at h
  split at h
  · rename_i hrange
    exact hle hrange.2 (by decide)
  · split at h
    · rename_i hrange
      exact hle hrange.2 (by decide)
    · split at h
      · rename_i hrange
        exact hle hrange.2 (by decide)
      · simp at h

theorem hexValue?_eq_some_iff {d : Char} {value : Nat} :
    hexValue? d = some value ↔ IsHexDigit d value := by
  constructor
  · intro h
    have hall : ∀ n < 103, ∀ value ∈ hexValue? (Char.ofNat n),
        "0123456789abcdef".toList[value]? = some (Char.ofNat n) ∨
          "0123456789ABCDEF".toList[value]? = some (Char.ofNat n) := by decide +kernel
    have hdigit := hall d.toNat (toNat_lt_of_hexValue? h) value
    rw [Char.ofNat_toNat] at hdigit
    exact hdigit h
  · have hall : ∀ value < 16,
        "0123456789abcdef".toList[value]?.bind hexValue? = some value ∧
          "0123456789ABCDEF".toList[value]?.bind hexValue? = some value := by decide
    rintro (h | h)
    · have hvalue := (hall value (List.getElem?_eq_some_iff.1 h).1).1
      rwa [h, Option.bind_some] at hvalue
    · have hvalue := (hall value (List.getElem?_eq_some_iff.1 h).1).2
      rwa [h, Option.bind_some] at hvalue

theorem unit?_eq_some_iff {a b c d : Char} {unit : Nat} :
    unit? a b c d = some unit ↔ IsUnit a b c d unit := by
  simp only [unit?, Option.bind_eq_bind, Option.bind_eq_some_iff, hexValue?_eq_some_iff, IsUnit]
  constructor
  · rintro ⟨p, hp, q, hq, r, hr, s, hs, h⟩
    exact ⟨p, q, r, s, hp, hq, hr, hs, (Option.some.inj h).symm⟩
  · rintro ⟨p, q, r, s, hp, hq, hr, hs, rfl⟩
    exact ⟨p, hp, q, hq, r, hr, s, hs, rfl⟩

theorem unescapeLetter?_eq_some_iff {letter c : Char} :
    unescapeLetter? letter = some c ↔ (letter, c) ∈ escapeLetters := by
  constructor
  · intro h
    unfold unescapeLetter? at h
    split at h <;> simp at h <;> subst h <;> decide
  · have hall : ∀ e ∈ escapeLetters, unescapeLetter? e.1 = some e.2 := by decide
    exact hall (letter, c)

/-- A hexadecimal digit neither ends content nor starts an escape. -/
theorem ne_of_isHexDigit {d : Char} {value : Nat} (h : IsHexDigit d value) :
    d ≠ '"' ∧ d ≠ '\\' := by
  have hquote : hexValue? '"' = none := by decide
  have hslash : hexValue? '\\' = none := by decide
  rw [← hexValue?_eq_some_iff] at h
  constructor <;> rintro rfl
  · simp [hquote] at h
  · simp [hslash] at h

/-! ### Reading -/

theorem not_surrogate_toNat (x : Char) :
    isHighSurrogate x.toNat = false ∧ isLowSurrogate x.toNat = false := by
  have hvalid := x.valid
  simp only [isHighSurrogate, isLowSurrogate, Bool.and_eq_false_iff, decide_eq_false_iff_not]
  rcases hvalid with hlt | ⟨hgt, -⟩ <;> rw [← Char.toNat] at * <;> omega

/-- **A piece is read** as the character for which it stands, and reading goes on behind it. -/
theorem readBody?_piece {piece : List Char} {c : Char} (h : Piece piece c) (rest : List Char) :
    readBody? (piece ++ rest) =
      (readBody? rest).map fun r => (c :: r.1, r.2 + piece.length) := by
  cases h with
  | itself hctrl hquote hslash =>
    rw [List.cons_append, List.nil_append,
      readBody?.eq_5 _ _ hquote (fun _ _ _ _ _ h _ => hslash h) fun _ _ h _ => hslash h,
      if_neg (Nat.not_lt.2 hctrl)]
    rfl
  | @letter letter _ hletter =>
    -- the letter is not read as the start of four hexadecimal digits
    have hu : letter ≠ 'u' := by
      rintro rfl
      exact absurd hletter (by simp [escapeLetters])
    rw [List.cons_append, List.cons_append, List.nil_append,
      readBody?.eq_4 _ _ fun _ _ _ _ _ h _ => hu h, unescapeLetter?_eq_some_iff.2 hletter]
    rfl
  | unit hunit =>
    obtain ⟨hhigh, hlow⟩ := not_surrogate_toNat c
    simp [readBody?, unit?_eq_some_iff.2 hunit, hhigh, hlow]
  | @pair _ _ _ _ _ _ _ _ _ high low hhigh hlow hhigh' hhigh'' hlow' hlow'' hx =>
    have hishigh : isHighSurrogate high = true := by simp [isHighSurrogate]; omega
    have hislow : isLowSurrogate low = true := by simp [isLowSurrogate]; omega
    have hchar : pairChar high low = c := by rw [pairChar, ← hx, Char.ofNat_toNat]
    simp [readBody?, unit?_eq_some_iff.2 hhigh, unit?_eq_some_iff.2 hlow, hishigh, hislow, hchar]

/-- Content in front of a quote is read. -/
theorem readBody?_content {body content : List Char} (h : Content body content)
    (rest : List Char) : readBody? (body ++ '"' :: rest) = some (content, body.length + 1) := by
  induction h with
  | nil => simp [readBody?]
  | cons hpiece _ ih =>
    rw [List.append_assoc, readBody?_piece hpiece, ih, Option.map_some, List.length_append]
    simp only [Option.some.injEq, Prod.mk.injEq, true_and]
    omega

theorem toNat_ofNat {n : Nat} (h : n.isValidChar) : (Char.ofNat n).toNat = n := by
  rw [Char.ofNat, dif_pos h]
  rfl

/-- A unit that is no half of a surrogate pair is a character. -/
theorem toNat_ofNat_unit {unit : Nat} (hlt : unit < 0x10000) (hhigh : isHighSurrogate unit = false)
    (hlow : isLowSurrogate unit = false) : (Char.ofNat unit).toNat = unit := by
  simp only [isHighSurrogate, isLowSurrogate, Bool.and_eq_false_iff, decide_eq_false_iff_not] at *
  refine toNat_ofNat ?_
  unfold Nat.isValidChar
  omega

theorem IsUnit.lt {a b c d : Char} {unit : Nat} (h : IsUnit a b c d unit) : unit < 0x10000 := by
  have hdigit {d : Char} {value : Nat} (h : IsHexDigit d value) : value < 16 := by
    rcases h with h | h <;> exact (List.getElem?_eq_some_iff.1 h).1
  obtain ⟨p, q, r, s, hp, hq, hr, hs, rfl⟩ := h
  have := hdigit hp
  have := hdigit hq
  have := hdigit hr
  have := hdigit hs
  omega

/-- **What is read is content** in front of a quote. -/
theorem exists_content_of_readBody? {cs : List Char} {r : List Char × Nat}
    (h : readBody? cs = some r) :
    ∃ body rest, cs = body ++ '"' :: rest ∧ Content body r.1 ∧ r.2 = body.length + 1 := by
  fun_induction readBody? cs generalizing r with
  | case2 rest =>
    obtain rfl := Option.some.inj h
    exact ⟨[], rest, rfl, .nil, rfl⟩
  | case5 a b c d unit hunit hhigh a' b' c' d' behind low hlow hislow ih =>
    obtain ⟨r', hr', rfl⟩ := Option.map_eq_some_iff.1 h
    obtain ⟨body, rest, rfl, hbody, hwidth⟩ := ih hr'
    have hpiece : Piece ['\\', 'u', a, b, c, d, '\\', 'u', a', b', c', d'] (pairChar unit low) := by
      simp only [isHighSurrogate, isLowSurrogate, Bool.and_eq_true, decide_eq_true_eq]
        at hhigh hislow
      refine .pair (unit?_eq_some_iff.1 hunit) (unit?_eq_some_iff.1 hlow) hhigh.1 hhigh.2 hislow.1
        hislow.2 ?_
      refine toNat_ofNat ?_
      unfold Nat.isValidChar
      omega
    exact ⟨_, rest, rfl, .cons hpiece hbody, by simp [hwidth]⟩
  | case9 a b c d behind unit hunit hhigh hlow ih =>
    obtain ⟨r', hr', rfl⟩ := Option.map_eq_some_iff.1 h
    obtain ⟨body, rest, rfl, hbody, hwidth⟩ := ih hr'
    have hisunit := unit?_eq_some_iff.1 hunit
    have hpiece : Piece ['\\', 'u', a, b, c, d] (Char.ofNat unit) := by
      refine .unit ?_
      rwa [toNat_ofNat_unit hisunit.lt (Bool.eq_false_iff.2 hhigh) (Bool.eq_false_iff.2 hlow)]
    exact ⟨_, rest, rfl, .cons hpiece hbody, by simp [hwidth]⟩
  | case11 letter behind _ c hletter ih =>
    obtain ⟨r', hr', rfl⟩ := Option.map_eq_some_iff.1 h
    obtain ⟨body, rest, rfl, hbody, hwidth⟩ := ih hr'
    exact ⟨_, rest, rfl, .cons (.letter (unescapeLetter?_eq_some_iff.1 hletter)) hbody,
      by simp [hwidth]⟩
  | case13 c behind hquote _ hescape hctrl ih =>
    obtain ⟨r', hr', rfl⟩ := Option.map_eq_some_iff.1 h
    have hslash : c ≠ '\\' := by
      rintro rfl
      cases behind with
      | nil => simp [readBody?] at hr'
      | cons letter behind => exact hescape _ _ rfl rfl
    obtain ⟨body, rest, rfl, hbody, hwidth⟩ := ih hr'
    exact ⟨_, rest, rfl, .cons (.itself (Nat.not_lt.1 hctrl) hquote hslash) hbody, by simp [hwidth]⟩
  | case1 | case3 | case4 | case6 | case7 | case8 | case10 | case12 => simp at h

/-- **Reading accepts string literals** at the front, and nothing else. -/
theorem readQuoted?_eq_some_iff {cs content : List Char} {width : Nat} :
    readQuoted? cs = some (content, width) ↔
      ∃ raw rest, cs = raw ++ rest ∧ raw.length = width ∧ IsStringLiteral raw content := by
  constructor
  · intro h
    unfold readQuoted? at h
    split at h
    · obtain ⟨r, hr, hmap⟩ := Option.map_eq_some_iff.1 h
      obtain ⟨rfl, rfl⟩ := Prod.mk.inj hmap
      obtain ⟨body, rest, rfl, hbody, hwidth⟩ := exists_content_of_readBody? hr
      exact ⟨'"' :: (body ++ ['"']), rest, by simp, by simp [hwidth], body, rfl, hbody⟩
    · simp at h
  · rintro ⟨_, rest, rfl, rfl, body, rfl, hbody⟩
    rw [List.cons_append, List.append_assoc, List.singleton_append, readQuoted?,
      readBody?_content hbody]
    simp

end RecordFilter.Text
