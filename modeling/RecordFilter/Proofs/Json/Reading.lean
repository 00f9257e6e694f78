import RecordFilter.Json.Reader
import RecordFilter.Proofs.Numeral
import RecordFilter.Proofs.Text.Quoted

/-!
# Compact texts are read back

The compact text of a value denotes the value, if its numbers are read back from theirs and no more
arrays and objects stand inside each other than the reader follows (`Json.ofText?_compact`). Names and
texts close themselves, so all that the reader needs of what stands behind a value is that it does not
continue a number (`Json.readValue?_compact`). With enough depth allowed, every value is read back, so
values with the same compact text are the same (`Json.compact_inj`).
-/

namespace RecordFilter

/-- The number is read back from its text, wherever nothing continues it. -/
def Number.IsReadBack (n : Number) : Prop :=
  ∀ rest, Numeral.Ends rest → readNumber? (n.text.toList ++ rest) = some (n, n.text.toList.length)

theorem Number.isReadBack_integer {n : Int} (fits) : (Number.integer n fits).IsReadBack :=
  fun _ hrest => readNumber?_integerText fits hrest

namespace Json

/-! ### Parts of values -/

mutual

/-- How many arrays and objects stand inside each other. -/
def nesting : Json → Nat
  | array elements => nestingOfElements elements + 1
  | object members => nestingOfMembers members + 1
  | null | bool _ | number _ | string _ => 0

/-- The greatest nesting of some elements. -/
def nestingOfElements : List Json → Nat
  | [] => 0
  | v :: vs => max v.nesting (nestingOfElements vs)

/-- The greatest nesting of some members. -/
def nestingOfMembers : List (String × Json) → Nat
  | [] => 0
  | (_, v) :: members => max v.nesting (nestingOfMembers members)

end

mutual

/-- The numbers in a value, from left to right. -/
def numbers : Json → List Number
  | number n => [n]
  | array elements => numbersOfElements elements
  | object members => numbersOfMembers members
  | null | bool _ | string _ => []

/-- The numbers in some elements, from left to right. -/
def numbersOfElements : List Json → List Number
  | [] => []
  | v :: vs => v.numbers ++ numbersOfElements vs

/-- The numbers in some members, from left to right. -/
def numbersOfMembers : List (String × Json) → List Number
  | [] => []
  | (_, v) :: members => v.numbers ++ numbersOfMembers members

end

theorem numbersOfMembers_append (members members' : List (String × Json)) :
    numbersOfMembers (members ++ members') =
      numbersOfMembers members ++ numbersOfMembers members' := by
  induction members with
  | nil => rfl
  | cons m members ih =>
    rw [List.cons_append, numbersOfMembers, ih, numbersOfMembers, List.append_assoc]

/-! ### Steps of the reader -/

variable {fuel depth width : Nat} {c : Char} {cs rest : List Char}

/-- The characters that are spacing, or around arrays and objects. -/
def marks : List Char := [' ', '\t', '\n', '\r', '[', ']', '\x7b', '\x7d']

/-- The characters start as a value does: neither with spacing nor with a closing bracket. -/
def Opens (cs : List Char) : Prop :=
  ∃ c ∈ cs.head?, isSpacing c = false ∧ c ≠ ']' ∧ c ≠ '\x7d'

theorem Opens.of_not_mark (hc : c ∈ cs.head?) (h : c ∉ marks) : Opens cs := by
  simp only [marks, List.mem_cons, List.not_mem_nil, or_false, not_or] at h
  obtain ⟨hspace, htab, hline, hreturn, -, hbracket, -, hbrace⟩ := h
  exact ⟨c, hc, by simp [isSpacing, hspace, htab, hline, hreturn], hbracket, hbrace⟩

theorem Opens.append (h : Opens cs) (rest : List Char) : Opens (cs ++ rest) := by
  obtain ⟨c, hc, hopens⟩ := h
  exact ⟨c, by simp [List.head?_append, Option.mem_def.1 hc], hopens⟩

theorem Opens.skipSpacing_eq (h : Opens cs) : skipSpacing cs = cs := by
  obtain ⟨c, hc, hspacing, -⟩ := h
  obtain ⟨cs, rfl⟩ := List.head?_eq_some_iff.1 hc
  simp [skipSpacing, hspacing]

/-- What starts with no mark is read as it stands. -/
theorem readValue?_atom (hc : c ∈ cs.head?) (h : c ∉ marks) :
    readValue? (fuel + 1) depth cs = readAtom? cs := by
  have hskip := (Opens.of_not_mark hc h).skipSpacing_eq
  obtain ⟨cs, rfl⟩ := List.head?_eq_some_iff.1 hc
  simp only [marks, List.mem_cons, List.not_mem_nil, or_false, not_or] at h
  unfold readValue?
  rw [hskip]
  split <;> simp_all

theorem readValue?_elements (h : Opens cs) : readValue? (fuel + 1) (depth + 1) ('[' :: cs) =
    (readElements? fuel depth cs).map fun r => (array r.1, r.2) := by
  have hskip : skipSpacing ('[' :: cs) = '[' :: cs := rfl
  obtain ⟨c, hc, -, hbracket, -⟩ := id h
  unfold readValue?
  simp only [hskip, h.skipSpacing_eq]
  split
  · exact absurd (Option.some.inj hc).symm hbracket
  · rfl

theorem readValue?_members (h : Opens cs) : readValue? (fuel + 1) (depth + 1) ('\x7b' :: cs) =
    (readMembers? fuel depth cs).map fun r => (object r.1, r.2) := by
  have hskip : skipSpacing ('\x7b' :: cs) = '\x7b' :: cs := rfl
  obtain ⟨c, hc, -, -, hbrace⟩ := id h
  unfold readValue?
  simp only [hskip, h.skipSpacing_eq]
  split
  · exact absurd (Option.some.inj hc).symm hbrace
  · rfl

theorem readAtom?_of_readQuoted? {content : List Char}
    (h : Text.readQuoted? cs = some (content, width)) :
    readAtom? cs = some (string (String.ofList content), cs.drop width) := by
  obtain ⟨body, behind, rfl, -, -⟩ := Text.exists_of_readQuoted? h
  simp [readAtom?, h]

theorem readAtom?_of_readNumber? {n : Number} (h : readNumber? cs = some (n, width)) :
    readAtom? cs = some (number n, cs.drop width) := by
  obtain ⟨c, hc, hstart⟩ := head_of_readNumber? h
  obtain ⟨cs, rfl⟩ := List.head?_eq_some_iff.1 hc
  have hne {d : Char} (hd : d ≠ '-' ∧ d.isDigit = false) : c ≠ d := by
    rintro rfl
    simp [hd] at hstart
  have hquoted : Text.readQuoted? (c :: cs) = none := by
    simp [Text.readQuoted?, hne (d := '"') (by decide)]
  simp [readAtom?, hne (d := 'n') (by decide), hne (d := 't') (by decide),
    hne (d := 'f') (by decide), hquoted, h]

theorem readQuoted?_quote (s : String) (rest : List Char) :
    Text.readQuoted? ((Text.quote s).toList ++ rest) =
      some (s.toList, (Text.quote s).toList.length) := by
  rw [Text.quote, String.toList_ofList]
  exact Text.readQuoted?_quoteChars s.toList rest

/-- The name of a member is read with the colon behind it. -/
theorem readName?_quote (s : String) (rest : List Char) :
    readName? ((Text.quote s).toList ++ ':' :: rest) = some (s, rest) := by
  have hcolon : skipSpacing (':' :: rest) = ':' :: rest := rfl
  simp only [readName?, readQuoted?_quote, List.drop_left, hcolon, String.ofList_toList]

theorem head_quote (s : String) : '"' ∈ (Text.quote s).toList.head? := by
  simp [Text.quote, Text.quoteChars]

theorem opens_quote (s : String) : Opens (Text.quote s).toList :=
  .of_not_mark (head_quote s) (by decide)

section

variable {v : Json}

theorem readElements?_last (h : readValue? fuel depth cs = some (v, ']' :: rest)) :
    readElements? (fuel + 1) depth cs = some ([v], rest) := by
  have hbracket : skipSpacing (']' :: rest) = ']' :: rest := rfl
  simp only [readElements?, h, hbracket]

theorem readElements?_next (h : readValue? fuel depth cs = some (v, ',' :: rest)) :
    readElements? (fuel + 1) depth cs =
      (readElements? fuel depth rest).map fun r => (v :: r.1, r.2) := by
  have hcomma : skipSpacing (',' :: rest) = ',' :: rest := rfl
  simp only [readElements?, h, hcomma]

theorem readMembers?_last (name : String)
    (h : readValue? fuel depth cs = some (v, '\x7d' :: rest)) :
    readMembers? (fuel + 1) depth ((Text.quote name).toList ++ ':' :: cs) =
      some ([(name, v)], rest) := by
  have hbrace : skipSpacing ('\x7d' :: rest) = '\x7d' :: rest := rfl
  simp only [readMembers?, ((opens_quote name).append _).skipSpacing_eq, readName?_quote, h, hbrace]

theorem readMembers?_next (name : String) (h : readValue? fuel depth cs = some (v, ',' :: rest)) :
    readMembers? (fuel + 1) depth ((Text.quote name).toList ++ ':' :: cs) =
      (readMembers? fuel depth rest).map fun r => ((name, v) :: r.1, r.2) := by
  have hcomma : skipSpacing (',' :: rest) = ',' :: rest := rfl
  simp only [readMembers?, ((opens_quote name).append _).skipSpacing_eq, readName?_quote, h, hcomma]

end

/-! ### Compact texts -/

theorem exists_head_number {n : Number} (h : n.IsReadBack) :
    ∃ c ∈ n.text.toList.head?, c ∉ marks := by
  have hread := h [] (by simp [Numeral.Ends])
  rw [List.append_nil] at hread
  obtain ⟨c, hc, hstart⟩ := head_of_readNumber? hread
  have hall : marks.all (fun d => d != '-' && !d.isDigit) = true := by decide
  refine ⟨c, hc, fun hmark => ?_⟩
  obtain ⟨hminus, hdigit⟩ : c ≠ '-' ∧ c.isDigit = false := by
    simpa using List.all_eq_true.1 hall c hmark
  simp [hminus, hdigit] at hstart

/-- A compact text starts as a value does. -/
theorem opens_compact {v : Json} (h : ∀ n ∈ v.numbers, n.IsReadBack) : Opens v.compact.toList := by
  cases v with
  | null => exact ⟨'n', rfl, by decide⟩
  | bool b => cases b <;> exact ⟨_, rfl, by decide⟩
  | number n =>
    obtain ⟨c, hc, hmark⟩ := exists_head_number (h n List.mem_cons_self)
    exact .of_not_mark hc hmark
  | string s => exact opens_quote s
  | array elements => exact ⟨'[', by simp [compact], by decide⟩
  | object members => exact ⟨'\x7b', by simp [compact], by decide⟩

/-- The characters between the brackets of an array in compact form. -/
def elementsChars (elements : List Json) : List Char :=
  (String.intercalate "," (compactElements elements)).toList

/-- The characters between the braces of an object in compact form. -/
def membersChars (members : List (String × Json)) : List Char :=
  (String.intercalate "," (compactMembers members)).toList

theorem toList_compact_array (elements : List Json) :
    (array elements).compact.toList = '[' :: (elementsChars elements ++ [']']) := by
  simp [compact, elementsChars]

theorem toList_compact_object (members : List (String × Json)) :
    (object members).compact.toList = '\x7b' :: (membersChars members ++ ['\x7d']) := by
  simp [compact, membersChars]

theorem elementsChars_singleton (v : Json) : elementsChars [v] = v.compact.toList := by
  simp [elementsChars, compactElements]

theorem elementsChars_cons (v : Json) {vs : List Json} (h : vs ≠ []) :
    elementsChars (v :: vs) = v.compact.toList ++ ',' :: elementsChars vs := by
  cases vs with
  | nil => exact absurd rfl h
  | cons v' vs => simp [elementsChars, compactElements, String.intercalate_cons_cons]

theorem membersChars_singleton (name : String) (v : Json) :
    membersChars [(name, v)] = (Text.quote name).toList ++ ':' :: v.compact.toList := by
  simp [membersChars, compactMembers]

theorem membersChars_cons (name : String) (v : Json) {members : List (String × Json)}
    (h : members ≠ []) : membersChars ((name, v) :: members) =
      (Text.quote name).toList ++ ':' :: (v.compact.toList ++ ',' :: membersChars members) := by
  cases members with
  | nil => exact absurd rfl h
  | cons m members => simp [membersChars, compactMembers, String.intercalate_cons_cons]

theorem opens_elementsChars {elements : List Json} (hne : elements ≠ [])
    (h : ∀ n ∈ numbersOfElements elements, n.IsReadBack) : Opens (elementsChars elements) := by
  obtain ⟨v, vs, rfl⟩ := List.exists_cons_of_ne_nil hne
  obtain ⟨hv, -⟩ := List.forall_mem_append.1 h
  by_cases hvs : vs = []
  · rw [hvs, elementsChars_singleton]
    exact opens_compact hv
  · rw [elementsChars_cons v hvs]
    exact (opens_compact hv).append _

theorem opens_membersChars {members : List (String × Json)} (hne : members ≠ []) :
    Opens (membersChars members) := by
  obtain ⟨⟨name, v⟩, members, rfl⟩ := List.exists_cons_of_ne_nil hne
  by_cases hmembers : members = []
  · rw [hmembers, membersChars_singleton]
    exact (opens_quote name).append _
  · rw [membersChars_cons name v hmembers]
    exact (opens_quote name).append _

/-! ### Reading back -/

mutual

/-- **A compact text in front of anything that does not continue a number is read back**, with fuel
for twice its characters and depth for its nesting. -/
theorem readValue?_compact : ∀ (v : Json) (fuel depth : Nat) (rest : List Char),
    (∀ n ∈ v.numbers, n.IsReadBack) → 2 * v.compact.toList.length ≤ fuel + 1 → v.nesting ≤ depth →
    Numeral.Ends rest → readValue? (fuel + 1) depth (v.compact.toList ++ rest) = some (v, rest)
  | .null => fun _ _ _ _ _ _ _ => readValue?_atom (c := 'n') rfl (by decide)
  | .bool true => fun _ _ _ _ _ _ _ => readValue?_atom (c := 't') rfl (by decide)
  | .bool false => fun _ _ _ _ _ _ _ => readValue?_atom (c := 'f') rfl (by decide)
  | .number n => by
    intro _ _ rest hnumbers _ _ hrest
    have hn : n.IsReadBack := hnumbers n List.mem_cons_self
    obtain ⟨c, hc, hmark⟩ := exists_head_number hn
    have hhead : c ∈ (n.text.toList ++ rest).head? := by
      simp [List.head?_append, Option.mem_def.1 hc]
    rw [compact, readValue?_atom hhead hmark, readAtom?_of_readNumber? (hn rest hrest),
      List.drop_left]
  | .string s => by
    intro _ _ rest _ _ _ _
    have hhead : '"' ∈ ((Text.quote s).toList ++ rest).head? := by
      simp [List.head?_append, Option.mem_def.1 (head_quote s)]
    rw [compact, readValue?_atom hhead (by decide),
      readAtom?_of_readQuoted? (readQuoted?_quote s rest), List.drop_left, String.ofList_toList]
  | .array elements => by
    intro fuel depth rest hnumbers hfuel hdepth _
    obtain ⟨depth, rfl⟩ : ∃ d, depth = d + 1 := Nat.exists_eq_add_one.2 (Nat.zero_lt_of_lt hdepth)
    rw [toList_compact_array] at hfuel ⊢
    rw [List.length_cons, List.length_append, List.length_singleton] at hfuel
    by_cases hne : elements = []
    · rw [hne]
      rfl
    · obtain ⟨fuel, rfl⟩ : ∃ f, fuel = f + 2 := ⟨fuel - 2, by omega⟩
      have hread := readElements?_compact elements fuel depth rest hne hnumbers (by omega)
        (Nat.le_of_succ_le_succ hdepth)
      rw [List.cons_append, List.append_assoc, List.singleton_append,
        readValue?_elements ((opens_elementsChars hne hnumbers).append _), hread]
      rfl
  | .object members => by
    intro fuel depth rest hnumbers hfuel hdepth _
    obtain ⟨depth, rfl⟩ : ∃ d, depth = d + 1 := Nat.exists_eq_add_one.2 (Nat.zero_lt_of_lt hdepth)
    rw [toList_compact_object] at hfuel ⊢
    rw [List.length_cons, List.length_append, List.length_singleton] at hfuel
    by_cases hne : members = []
    · rw [hne]
      rfl
    · obtain ⟨fuel, rfl⟩ : ∃ f, fuel = f + 2 := ⟨fuel - 2, by omega⟩
      have hread := readMembers?_compact members fuel depth rest hne hnumbers (by omega)
        (Nat.le_of_succ_le_succ hdepth)
      rw [List.cons_append, List.append_assoc, List.singleton_append,
        readValue?_members ((opens_membersChars hne).append _), hread]
      rfl

theorem readElements?_compact : ∀ (elements : List Json) (fuel depth : Nat) (rest : List Char),
    elements ≠ [] → (∀ n ∈ numbersOfElements elements, n.IsReadBack) →
    2 * (elementsChars elements).length ≤ fuel + 1 → nestingOfElements elements ≤ depth →
    readElements? (fuel + 2) depth (elementsChars elements ++ ']' :: rest) = some (elements, rest)
  | [] => fun _ _ _ hne => absurd rfl hne
  | v :: vs => by
    intro fuel depth rest _ hnumbers hfuel hdepth
    obtain ⟨hv, hvs⟩ := List.forall_mem_append.1 hnumbers
    obtain ⟨hfirst, hothers⟩ := Nat.max_le.1 hdepth
    by_cases hne : vs = []
    · rw [hne, elementsChars_singleton] at hfuel ⊢
      have hends : Numeral.Ends (']' :: rest) := by simp [Numeral.Ends]
      exact readElements?_last (readValue?_compact v fuel depth _ hv hfuel hfirst hends)
    · rw [elementsChars_cons v hne] at hfuel ⊢
      rw [List.length_append, List.length_cons] at hfuel
      obtain ⟨fuel, rfl⟩ : ∃ f, fuel = f + 1 := ⟨fuel - 1, by omega⟩
      have hends : Numeral.Ends (',' :: (elementsChars vs ++ ']' :: rest)) := by simp [Numeral.Ends]
      have hread := readElements?_compact vs fuel depth rest hne hvs (by omega) hothers
      rw [List.append_assoc, List.cons_append,
        readElements?_next (readValue?_compact v _ depth _ hv (by omega) hfirst hends), hread]
      rfl

theorem readMembers?_compact : ∀ (members : List (String × Json)) (fuel depth : Nat)
    (rest : List Char), members ≠ [] → (∀ n ∈ numbersOfMembers members, n.IsReadBack) →
    2 * (membersChars members).length ≤ fuel + 1 → nestingOfMembers members ≤ depth →
    readMembers? (fuel + 2) depth (membersChars members ++ '\x7d' :: rest) = some (members, rest)
  | [] => fun _ _ _ hne => absurd rfl hne
  | (name, v) :: members => by
    intro fuel depth rest _ hnumbers hfuel hdepth
    obtain ⟨hv, hmembers⟩ := List.forall_mem_append.1 hnumbers
    obtain ⟨hfirst, hothers⟩ := Nat.max_le.1 hdepth
    by_cases hne : members = []
    · rw [hne, membersChars_singleton] at hfuel ⊢
      rw [List.length_append, List.length_cons] at hfuel
      have hends : Numeral.Ends ('\x7d' :: rest) := by simp [Numeral.Ends]
      rw [List.append_assoc, List.cons_append]
      exact readMembers?_last name (readValue?_compact v fuel depth _ hv (by omega) hfirst hends)
    · rw [membersChars_cons name v hne] at hfuel ⊢
      rw [List.length_append, List.length_cons, List.length_append, List.length_cons] at hfuel
      obtain ⟨fuel, rfl⟩ : ∃ f, fuel = f + 1 := ⟨fuel - 1, by omega⟩
      have hends : Numeral.Ends (',' :: (membersChars members ++ '\x7d' :: rest)) := by
        simp [Numeral.Ends]
      have hread := readMembers?_compact members fuel depth rest hne hmembers (by omega)
        hothers
      rw [List.append_assoc, List.cons_append, List.append_assoc, List.cons_append,
        readMembers?_next name (readValue?_compact v _ depth _ hv (by omega) hfirst hends), hread]
      rfl

end

/-- **Compact texts are read back.** -/
theorem ofText?_compact {v : Json} (hnumbers : ∀ n ∈ v.numbers, n.IsReadBack)
    (hnesting : v.nesting ≤ readingDepth) : ofText? v.compact = some v := by
  have hread := readValue?_compact v (2 * v.compact.toList.length) readingDepth []
    hnumbers (Nat.le_succ _) hnesting (by simp [Numeral.Ends])
  rw [List.append_nil] at hread
  simp only [ofText?, hread]
  rfl

/-- **Compact texts determine values** whose numbers are determined by theirs. -/
theorem compact_inj {v v' : Json} (h : ∀ n ∈ v.numbers, n.IsReadBack)
    (h' : ∀ n ∈ v'.numbers, n.IsReadBack) (htext : v.compact = v'.compact) : v = v' := by
  -- both are read with the depth for both
  have hread := readValue?_compact v (2 * v.compact.toList.length) (max v.nesting v'.nesting)
    [] h (Nat.le_succ _) (Nat.le_max_left _ _) (by simp [Numeral.Ends])
  have hread' := readValue?_compact v' (2 * v.compact.toList.length) (max v.nesting v'.nesting)
    [] h' (htext ▸ Nat.le_succ _) (Nat.le_max_right _ _) (by simp [Numeral.Ends])
  rw [← htext, hread] at hread'
  exact (Prod.mk.inj (Option.some.inj hread')).1

end Json

end RecordFilter
