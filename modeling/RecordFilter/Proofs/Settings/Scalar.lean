import RecordFilter.Proofs.Decimal.Plain
import RecordFilter.Settings.Value

/-!
# Texts that count as scalars

The text of a variable counts as a boolean or a number where it reads as one
(`Settings.IsScalar`), and is turned into a text again when the setting wants one. It comes back
unchanged exactly if it is the text that this boolean or number has (`Settings.IsCanonical`):
`Value.exists_text?_of_isScalar`. What counts as no scalar is left as it is
(`Value.ofText_of_not_isScalar`), and that is so for everything with a comma
(`Settings.not_isScalar_of_comma`).
-/

namespace RecordFilter.Settings

open Numeral (IsDigits)

/-! ### Scalars -/

/-- A boolean in any case. -/
def IsBooleanWord (s : String) : Prop :=
  String.ofList (s.toList.map Char.toLower) ∈ ["true", "false"]

/-- The text counts as a boolean, an integer or a float. Integers are among the decimals. -/
def IsScalar (s : String) : Prop := IsBooleanWord s ∨ Binary64.IsText s

/-- The text is the one that a boolean, an integer of 64 bits or a float has. The negative zero is
missing, as its text counts as the integer zero. -/
inductive IsCanonical : String → Prop where
  | boolean (b : Bool) : IsCanonical (if b then "true" else "false")
  | integer {n : Int} : -0x8000000000000000 ≤ n → n < 0x8000000000000000 →
      IsCanonical (integerText n)
  | float {x : Binary64} : x.plainText ≠ "-0" → IsCanonical x.plainText

variable {s : String}

/-- A boolean is no number. -/
theorem not_isBooleanWord_of_isText (h : Binary64.IsText s) : ¬IsBooleanWord s := by
  intro hword
  obtain ⟨c, hc, hstart⟩ := h.head
  obtain ⟨cs, hcs⟩ := List.head?_eq_some_iff.1 hc
  have hletter : c.toLower = 't' ∨ c.toLower = 'f' := by
    simp only [IsBooleanWord, hcs, List.mem_cons, List.not_mem_nil, or_false, ← String.toList_inj,
      String.toList_ofList, List.map_cons] at hword
    rcases hword with hword | hword
    · exact .inl (List.cons.inj hword).1
    · exact .inr (List.cons.inj hword).1
  rcases hstart with hstart | hdigit
  · rcases hletter with hletter | hletter <;> simp [hletter] at hstart
  · rw [Binary64.toLower_eq_self (.inl hdigit)] at hletter
    rcases hletter with rfl | rfl <;> simp at hdigit

/-! ### Integers -/

/-- **The text of an integer is read back** if 64 bits hold it. -/
theorem readInteger?_integerText {n : Int} (hlow : -0x8000000000000000 ≤ n)
    (hhigh : n < 0x8000000000000000) : readInteger? 10 (integerText n).toList = some n := by
  rw [readInteger?_ten_eq_some_iff]
  rcases lt_or_ge n 0 with hneg | hnonneg
  · obtain ⟨m, rfl⟩ := Int.exists_eq_neg_ofNat (le_of_lt hneg)
    have htext := Numeral.toList_integerText_neg (n := m) (by omega)
    refine ⟨['-'], Nat.toDigits 10 m, true, htext, .minus, IsDigits.toDigits m, ?_, hlow, hhigh⟩
    rw [Nat.ofDigitChars_ten_toDigits, if_pos rfl]
  · obtain ⟨m, rfl⟩ := Int.eq_ofNat_of_zero_le hnonneg
    have htext := Numeral.toList_integerText_natCast m
    refine ⟨[], Nat.toDigits 10 m, false, htext, .absent, IsDigits.toDigits m, ?_, hlow, hhigh⟩
    rw [Nat.ofDigitChars_ten_toDigits, if_neg Bool.false_ne_true]

/-! ### Values -/

namespace Value

variable (orElse : String → Value)

/-- What is no boolean is an integer, a float, or left to the setting. -/
theorem ofText_of_not_isBooleanWord (h : ¬IsBooleanWord s) : ofText orElse s =
    (((readInteger? 10 s.toList).map integer).or ((Binary64.ofText? s).map float)).getD
      (orElse s) := by
  rw [IsBooleanWord] at h
  unfold ofText
  split
  · rename_i htrue
    simp [htrue] at h
  · rename_i hfalse
    simp [hfalse] at h
  · cases readInteger? 10 s.toList with
    | some n => rfl
    | none => cases Binary64.ofText? s <;> rfl

/-- What counts as no scalar is left to the setting. -/
theorem ofText_of_not_isScalar (h : ¬IsScalar s) : ofText orElse s = orElse s := by
  rw [IsScalar, not_or] at h
  have hinteger : readInteger? 10 s.toList = none := by
    rw [Option.eq_none_iff_forall_ne_some]
    exact fun n hn => h.2 (Binary64.isText_of_readInteger? hn)
  have hfloat : Binary64.ofText? s = none := by
    rw [← Option.not_isSome_iff_eq_none, Binary64.isSome_ofText?_iff]
    exact h.2
  rw [ofText_of_not_isBooleanWord orElse h.1, hinteger, hfloat]
  rfl

/-- A number is an integer if it can be, and a float otherwise. -/
theorem ofText_of_isText (h : Binary64.IsText s) :
    (∃ n, readInteger? 10 s.toList = some n ∧ ofText orElse s = integer n) ∨
      ∃ x, readInteger? 10 s.toList = none ∧ Binary64.ofText? s = some x ∧
        ofText orElse s = float x := by
  have hnumber := ofText_of_not_isBooleanWord orElse (not_isBooleanWord_of_isText h)
  obtain ⟨x, hx⟩ := Option.isSome_iff_exists.1 (Binary64.isSome_ofText?_iff.2 h)
  cases hinteger : readInteger? 10 s.toList with
  | some n => exact .inl ⟨n, rfl, by rw [hnumber, hinteger]; rfl⟩
  | none => exact .inr ⟨x, rfl, hx, by rw [hnumber, hinteger, hx]; rfl⟩

/-- A boolean word is a boolean, and its text is the word in lower case. -/
theorem ofText_of_isBooleanWord (h : IsBooleanWord s) : ∃ b, ofText orElse s = boolean b := by
  simp only [IsBooleanWord, List.mem_cons, List.not_mem_nil, or_false] at h
  unfold ofText
  rcases h with htrue | hfalse
  · exact ⟨true, by rw [htrue]; rfl⟩
  · exact ⟨false, by rw [hfalse]; rfl⟩

/-- **Canonical texts come back as written.** -/
theorem text?_ofText_of_isCanonical (h : IsCanonical s) : (ofText orElse s).text? = some s := by
  cases h with
  | boolean b => cases b <;> rfl
  | @integer n hlow hhigh =>
    have hread := readInteger?_integerText hlow hhigh
    obtain ⟨n', hn', hvalue⟩ | ⟨x, hnone, -⟩ :=
      ofText_of_isText orElse (Binary64.isText_of_readInteger? hread)
    · rw [hvalue, text?, Option.some.inj (hn'.symm.trans hread)]
    · simp [hread] at hnone
  | @float x hzero =>
    have hread := x.ofText?_plainText
    have htext : Binary64.IsText x.plainText :=
      Binary64.isSome_ofText?_iff.1 (Option.isSome_iff_exists.2 ⟨_, hread⟩)
    obtain ⟨n, hn, hvalue⟩ | ⟨y, -, hy, hvalue⟩ := ofText_of_isText orElse htext
    · rw [hvalue, text?, Binary64.integerText_of_plainText hn hzero]
    · obtain rfl := Option.some.inj (hy.symm.trans hread)
      rw [hvalue, text?, x.plainText_reread]

/-- **Scalars come back as written exactly if they are canonical**, and are no lists. -/
theorem exists_text?_of_isScalar (h : IsScalar s) :
    ∃ t, (ofText orElse s).text? = some t ∧ (ofText orElse s).texts? = none ∧
      (t = s ↔ IsCanonical s) := by
  -- the value has a text, which is canonical
  obtain ⟨t, ht, hlist, hcanonical⟩ : ∃ t, (ofText orElse s).text? = some t ∧
      (ofText orElse s).texts? = none ∧ (t = s → IsCanonical s) := by
    rcases h with hword | htext
    · obtain ⟨b, hvalue⟩ := ofText_of_isBooleanWord orElse hword
      rw [hvalue]
      exact ⟨_, rfl, rfl, fun ht => ht ▸ .boolean b⟩
    · obtain ⟨n, hn, hvalue⟩ | ⟨x, hn, -, hvalue⟩ := ofText_of_isText orElse htext
      · obtain ⟨-, -, -, -, -, -, -, hlow, hhigh⟩ := readInteger?_ten_eq_some_iff.1 hn
        rw [hvalue]
        exact ⟨_, rfl, rfl, fun ht => ht ▸ .integer hlow hhigh⟩
      · rw [hvalue]
        refine ⟨_, rfl, rfl, fun ht => ?_⟩
        -- the negative zero would have counted as an integer
        subst ht
        refine .float fun hzero => ?_
        rw [hzero] at hn
        exact absurd hn (by decide)
  refine ⟨t, ht, hlist, hcanonical, fun hs => ?_⟩
  rw [text?_ofText_of_isCanonical orElse hs] at ht
  exact (Option.some.inj ht).symm

theorem ofVariable_of_not_isScalar (isList : Bool) (h : ¬IsScalar s) :
    ofVariable isList s = if isList then list ((s.splitOn ",").map text) else text s :=
  ofText_of_not_isScalar _ h

theorem exists_text?_ofVariable (isList : Bool) (h : IsScalar s) :
    ∃ t, (ofVariable isList s).text? = some t ∧ (ofVariable isList s).texts? = none ∧
      (t = s ↔ IsCanonical s) :=
  exists_text?_of_isScalar _ h

end Value

/-! ### Commas -/

/-- **What has a comma counts as no scalar.** -/
theorem not_isScalar_of_comma (h : ',' ∈ s.toList) : ¬IsScalar s := by
  have hlower {cs : List Char} {words : List String} (hcs : ',' ∈ cs)
      (hwords : ∀ w ∈ words, ',' ∉ w.toList) : String.ofList (cs.map Char.toLower) ∉ words := by
    intro hmem
    refine hwords _ hmem ?_
    rw [String.toList_ofList]
    exact List.mem_map.2 ⟨',', hcs, rfl⟩
  have hsign {sign : List Char} {negative : Bool} (hsign : IsSign sign negative) : ',' ∉ sign := by
    cases hsign <;> decide
  have hdigits {ds : List Char} (hds : IsDigits ds) : ',' ∉ ds :=
    fun hmem => absurd (hds.2 ',' hmem) (by decide)
  have hpower {power : List Char} {exponent : Int} (hpower : Decimal.IsPower power exponent) :
      ',' ∉ power := by
    cases hpower with
    | absent => simp
    | exponent hmark hsign' hds =>
      have hmark' := hsign hsign'
      have hds' := hdigits hds
      rcases hmark with rfl | rfl <;> simp [hmark', hds']
  rintro (hword | ⟨sign, body, negative, htext, hsign', hbody⟩)
  · exact hlower h (by decide) hword
  · rw [htext, List.mem_append, or_iff_right (hsign hsign')] at h
    rcases hbody with hword | ⟨d, hspelling⟩
    · exact hlower h (by decide) hword
    · cases hspelling with
      | integral hds hp => simp [hdigits hds, hpower hp] at h
      | pointed hds hp =>
        have hds' := hdigits hds
        rw [List.mem_append, not_or] at hds'
        simp [hds', hpower hp] at h

end RecordFilter.Settings
