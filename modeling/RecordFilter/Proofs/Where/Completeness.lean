import RecordFilter.Proofs.Parser.Accepting
import RecordFilter.Proofs.Where.Nesting

/-!
# Texts of incomplete groups

What is written of an incomplete draft, or of a group without clauses, is refused wherever it
stands: no join word, parenthesis or condition around it makes an expression of it. The argument
goes from left to right. Where a term must follow, a clause that is accepted together with what
printers put behind it has complete drafts, and the parser goes on behind it
(`Clause.drafts_complete_of_accepts`). The other direction is that complete drafts are written as
their conditions. So a group without raw text has an expression behind its text exactly if it is
complete (`Where.exists_parse_text_iff`).

Numbers that are not finite are refused in two ways: `NaN` and `inf` are words that mean nothing,
and no token starts like `-inf`.
-/

namespace RecordFilter

open RecordFilter.Parser (State Step Accepts)
open Token (Delimits Writes joinText)

/-! ### Complete drafts and groups -/

/-- The literal of a boolean, an integer, a text, a date, a timestamp, or a number that is not
finite. -/
inductive Literal.IsGiven : Literal → Prop where
  | authored {v : Literal} : v.IsAuthored → IsGiven v
  | nonFinite (x : Binary64) : x.isFinite = false → IsGiven (.ofBinary64 x)

/-- The draft names a property and has an operator, and no operand of that operator is a number that
is not finite. -/
structure Draft.IsComplete (d : Draft) : Prop where
  exists_property : ∃ property, d.property = some property ∧ property ≠ ""
  exists_operator : ∃ op, d.operator = some op
  kind_ne : ∀ op ∈ d.operator, op.takesValue = true → ∀ v ∈ d.value, v.kind ≠ .nonFinite

/-- Every group has clauses, every draft is complete, and the limit of nesting is kept. -/
structure Where.IsComplete (w : Where) : Prop where
  clauses_ne_nil : ∀ g ∈ w.toClause.groups, g.2 ≠ []
  drafts_complete : ∀ d ∈ w.toClause.drafts, d.IsComplete
  nesting_le : w.nesting ≤ nestingLimit

/-- A given literal is one that can be written, or a number that is not finite. -/
theorem Literal.IsGiven.cases {v : Literal} (h : v.IsGiven) :
    v.IsWritable ∨ ∃ x : Binary64, x.isFinite = false ∧ v = .nonFinite x := by
  cases h with
  | authored h => exact .inl h.isWritable
  | nonFinite x h => exact .inr ⟨x, h, by simp [ofBinary64, Number.ofBinary64?, h]⟩

namespace Draft

/-- The operand of a complete draft can be written. -/
theorem IsComplete.isWritable_value {d : Draft} (h : d.IsComplete)
    (hd : d.Reachable Literal.IsGiven) : ∀ v ∈ d.value, v.IsWritable := by
  intro v hv
  obtain ⟨op, hop⟩ := h.exists_operator
  have htakes : op.takesValue = true := by
    rw [← hd.isSome_value op hop, Option.isSome_iff_exists]
    exact ⟨v, hv⟩
  rcases (hd.allowed v hv).cases with hwritable | ⟨x, -, rfl⟩
  · exact hwritable
  · exact absurd rfl (h.kind_ne op hop htakes _ hv)

/-- A complete draft has a condition. -/
theorem IsComplete.exists_condition {d : Draft} (h : d.IsComplete)
    (hd : d.Reachable Literal.IsGiven) : ∃ c, d.condition = .ok c := by
  obtain ⟨property, hproperty, hne⟩ := h.exists_property
  obtain ⟨op, hop⟩ := h.exists_operator
  have hsome := hd.isSome_value op hop
  refine ⟨⟨property, op, if op.takesValue then d.value else none⟩, ?_⟩
  refine condition_eq_ok_iff.2 ⟨hne, hproperty, hop, ?_, rfl⟩
  cases htakes : op.takesValue with
  | false => simp
  | true => simpa [htakes] using hsome

end Draft

/-! ### What follows a clause -/

/-- What printers put behind a clause: nothing, a closing parenthesis, or a join word. -/
inductive Clause.Follows : List Char → Prop where
  | nothing : Follows []
  | closing (rest : List Char) : Follows (')' :: rest)
  | join (j : Join) (rest : List Char) : Follows ((joinText j).toList ++ rest)

theorem Clause.Follows.delimits {rest : List Char} (h : Clause.Follows rest) : Delimits rest := by
  cases h with
  | nothing => exact Token.delimits_nil
  | closing rest => exact Token.delimits_closing rest
  | join j rest =>
    have hform : (joinText j).toList ++ rest = ' ' :: (j.word.toList ++ ' ' :: rest) := by
      simp [joinText]
    rw [hform]
    exact Token.delimits_space _

/-- What follows a clause is accepted behind a term only. -/
theorem Clause.Follows.exists_continuation {rest : List Char} (h : Clause.Follows rest) {s : State}
    (haccepts : Accepts s rest) : ∃ bare, s.expectation = .continuation bare := by
  cases h with
  | nothing =>
    obtain ⟨e, he⟩ := haccepts.exists_finish
    cases hexpects : s.expectation with
    | continuation bare => exact ⟨bare, rfl⟩
    | term | operator _ | value _ _ => simp [Parser.finish, hexpects] at he
  | closing rest =>
    obtain ⟨s', hstep, -⟩ := haccepts.of_closing
    cases hstep with
    | closing hexpects _ => exact ⟨_, hexpects⟩
    | value _ hoperand => simp [Parser.operand?] at hoperand
  | join j rest =>
    obtain ⟨s', hstep, -⟩ := haccepts.of_join
    cases hstep with
    | join hexpects _ => exact ⟨_, hexpects⟩
    | value _ hoperand => simp [Parser.operand?] at hoperand

/-! ### Numbers that are not finite -/

/-- No token starts with a minus sign in front of a letter. -/
theorem Token.read?_negativeInfinity (rest : List Char) :
    Token.read? ('-' :: 'i' :: rest) = none := by
  have hword : Token.isWordStart '-' = false := by decide +kernel
  rw [Token.read?_of_not_marker (by decide)]
  simp [readNumber?, Numeral.scan?, Numeral.scanUnsigned?, Numeral.digits, Token.readWord?, hword]

/-- **A number that is not finite is accepted nowhere.** -/
theorem Parser.Accepts.not_of_nonFinite {s : State} {x : Binary64} {rest : List Char}
    (hx : x.isFinite = false) (hrest : Delimits rest) :
    ¬ Accepts s (x.plainText.toList ++ rest) := by
  unfold Binary64.plainText
  split
  · have hnan : Writes "NaN".toList [.word "NaN"] :=
      Token.writes_word rfl (by decide +kernel) (by decide +kernel)
    exact not_of_word hnan hrest
  · rw [if_neg (by simp [hx])]
    split
    · -- minus infinity has no tokens, so nothing behind it counts
      have hchars : "-inf".toList = ['-', 'i', 'n', 'f'] := rfl
      rintro ⟨ts, s', hspells, -⟩
      rw [hchars] at hspells
      rcases hspells.exists_read? with hseparator | ⟨r, hr⟩
      · simp [Token.isSeparator] at hseparator
      · simp [Token.read?_negativeInfinity] at hr
    · have hinf : Writes "inf".toList [.word "inf"] :=
        Token.writes_word rfl (by decide +kernel) (by decide +kernel)
      exact not_of_word hinf hrest

/-! ### Drafts that are accepted -/

/-- An operand is taken if it is not a number that is not finite. -/
theorem Parser.Accepts.of_literal {s : State} {v : Literal} {rest : List Char}
    (hv : v.IsGiven) (hrest : Delimits rest) (h : Accepts s (v.text.toList ++ rest)) :
    v.kind ≠ .nonFinite ∧ ∃ s', Accepts s' rest := by
  rcases hv.cases with hwritable | ⟨x, hx, rfl⟩
  · obtain ⟨s', -, hrest'⟩ := h.of_writes (writes_literal hwritable) hrest
    exact ⟨hwritable.kind_ne, s', hrest'⟩
  · exact absurd h (not_of_nonFinite hx hrest)

/-- **A draft is accepted only if it is complete.** -/
theorem Draft.isComplete_of_accepts {d : Draft} (hd : d.Reachable Literal.IsGiven) {s : State}
    {rest : List Char} (hexpects : s.expectation = .term) (hrest : Clause.Follows rest)
    (h : Accepts s (d.text.toList ++ rest)) : d.IsComplete ∧ ∃ s', Accepts s' rest := by
  have hproperty : d.property.getD "" ≠ "" →
      ∃ property, d.property = some property ∧ property ≠ "" := by
    cases d.property with
    | none => simp
    | some property => exact fun hne => ⟨property, rfl, hne⟩
  rw [text] at h
  cases hop : d.operator with
  | none =>
    -- an operator must follow the name of a property, and nothing behind a draft is one
    simp only [hop] at h
    obtain ⟨s', hstep, hrest'⟩ := h.of_writes_singleton (Token.writes_quote _) hrest.delimits
    obtain ⟨bare, hcontinuation⟩ := hrest.exists_continuation hrest'
    simp [(hstep.of_string hexpects).2] at hcontinuation
  | some op =>
    simp only [hop] at h
    cases htakes : op.takesValue with
    | false =>
      simp only [htakes, Bool.false_eq_true, if_false] at h
      obtain ⟨hne, hrest'⟩ := h.of_head hexpects hrest.delimits
      exact ⟨⟨hproperty hne, ⟨op, hop⟩, by simp [hop, htakes]⟩, hrest'⟩
    | true =>
      obtain ⟨v, hv⟩ : ∃ v, d.value = some v :=
        Option.isSome_iff_exists.1 ((hd.isSome_value op hop).trans htakes)
      simp only [htakes, hv, if_true] at h
      have hform : (Text.quote (d.property.getD "") ++ " " ++ op.symbol ++ " " ++ v.text).toList ++
          rest = (Text.quote (d.property.getD "") ++ " " ++ op.symbol).toList ++
            ' ' :: (v.text.toList ++ rest) := by simp
      rw [hform] at h
      obtain ⟨hne, s', hoperand⟩ := h.of_head hexpects (Token.delimits_space _)
      obtain ⟨hkind, hrest'⟩ :=
        (hoperand.of_separator rfl).of_literal (hd.allowed v hv) hrest.delimits
      exact ⟨⟨hproperty hne, ⟨op, hop⟩, by simp [hv, hkind]⟩, hrest'⟩

/-! ### Clauses that are accepted -/

namespace Clause

mutual

/-- **A clause is accepted only if its drafts are complete**, whatever printers put behind it. -/
theorem drafts_complete_of_accepts : ∀ (c : Clause) {s : State} {rest : List Char},
    c.containsRaw = false → (∀ d ∈ c.drafts, d.Reachable Literal.IsGiven) →
    s.expectation = .term → Follows rest → Accepts s (c.text.toList ++ rest) →
    (∀ d ∈ c.drafts, d.IsComplete) ∧ ∃ s', Accepts s' rest
  | .draft d, s, rest, _, hdrafts, hexpects, hrest, h => by
    rw [text] at h
    obtain ⟨hcomplete, hrest'⟩ :=
      Draft.isComplete_of_accepts (hdrafts d (by simp [drafts])) hexpects hrest h
    exact ⟨by simpa [drafts] using hcomplete, hrest'⟩
  | .nested join cs, s, rest, hraw, hdrafts, _, hrest, h => by
    have hform : (nested join cs).text.toList ++ rest = '(' ::
        (((joinText (join.getD .and)).intercalate (texts cs)).toList ++ ')' :: rest) := by
      simp [text, joinText]
    rw [hform] at h
    obtain ⟨s', hopening, hinside⟩ := h.of_opening
    obtain ⟨hcomplete, s'', hbehind⟩ := draftsOfAll_complete_of_accepts _ cs
      (by simpa [containsRaw] using hraw) hdrafts (hopening.expectation_eq_term (.inl rfl)) hinside
    obtain ⟨closed, -, hrest'⟩ := hbehind.of_closing
    exact ⟨hcomplete, closed, hrest'⟩
  | .raw _, _, _, hraw, _, _, _, _ => by simp [containsRaw] at hraw

/-- The clauses of a group, up to the parenthesis that closes it. -/
theorem draftsOfAll_complete_of_accepts (join : Join) : ∀ (cs : List Clause) {s : State}
    {rest : List Char}, containsRawAny cs = false →
    (∀ d ∈ draftsOfAll cs, d.Reachable Literal.IsGiven) → s.expectation = .term →
    Accepts s (((joinText join).intercalate (texts cs)).toList ++ ')' :: rest) →
    (∀ d ∈ draftsOfAll cs, d.IsComplete) ∧ ∃ s', Accepts s' (')' :: rest)
  | [], s, rest, _, _, _, h => ⟨by simp [draftsOfAll], s, h⟩
  | [c], s, rest, hraw, hdrafts, hexpects, h => by
    obtain ⟨hcomplete, hrest'⟩ := drafts_complete_of_accepts c
      (by simpa [containsRawAny] using hraw) (by simpa [draftsOfAll] using hdrafts) hexpects
      (.closing rest) (by simpa [texts] using h)
    exact ⟨by simpa [draftsOfAll] using hcomplete, hrest'⟩
  | c :: c' :: cs, s, rest, hraw, hdrafts, hexpects, h => by
    obtain ⟨hc, hcs⟩ : c.containsRaw = false ∧ containsRawAny (c' :: cs) = false := by
      rwa [containsRawAny, Bool.or_eq_false_iff] at hraw
    rw [draftsOfAll, List.forall_mem_append] at hdrafts
    have hform : ((joinText join).intercalate (texts (c :: c' :: cs))).toList ++ ')' :: rest =
        c.text.toList ++ ((joinText join).toList ++
          (((joinText join).intercalate (texts (c' :: cs))).toList ++ ')' :: rest)) := by
      simp [texts, String.intercalate_cons_cons]
    rw [hform] at h
    -- what is accepted behind the first clause is a join word and the other clauses
    obtain ⟨hcomplete, s', hjoin⟩ :=
      drafts_complete_of_accepts c hc hdrafts.1 hexpects (.join join _) h
    obtain ⟨s'', hstep, hclauses⟩ := hjoin.of_join
    obtain ⟨hcompletes, hrest'⟩ := draftsOfAll_complete_of_accepts join (c' :: cs) hcs hdrafts.2
      (hstep.expectation_eq_term (.inr ⟨join, rfl⟩)) hclauses
    refine ⟨?_, hrest'⟩
    rw [draftsOfAll, List.forall_mem_append]
    exact ⟨hcomplete, hcompletes⟩

end

end Clause

/-! ### Groups that parse -/

namespace Where

variable {w : Where}

/-- A group whose drafts are complete denotes an expression in conditions that the language
has. -/
theorem exists_denotes_of_complete (hraw : w.containsRaw = false)
    (hdrafts : ∀ d ∈ w.toClause.drafts, d.Reachable Literal.IsGiven)
    (hcomplete : ∀ d ∈ w.toClause.drafts, d.IsComplete) :
    ∃ e, w.toClause.Denotes e ∧ ∀ c ∈ e.conditions, c.IsWritable := by
  obtain ⟨e, he⟩ := Clause.exists_denotes w.toClause hraw fun d hd =>
    (hcomplete d hd).exists_condition (hdrafts d hd)
  exact ⟨e, he, he.isWritable fun d hd => (hcomplete d hd).isWritable_value (hdrafts d hd)⟩

/-- The drafts of a group that parses are complete. -/
theorem drafts_complete_of_parse (hraw : w.containsRaw = false)
    (hdrafts : ∀ d ∈ w.toClause.drafts, d.Reachable Literal.IsGiven)
    (h : ∃ e, Expr.parse w.text = .ok e) : ∀ d ∈ w.toClause.drafts, d.IsComplete := by
  have haccepts : Accepts .start (w.toClause.text.toList ++ []) := by
    rw [List.append_nil]
    exact Parser.exists_parse_iff.1 h
  exact (Clause.drafts_complete_of_accepts _ hraw hdrafts rfl .nothing haccepts).1

/-- A group whose drafts are complete parses exactly if its groups have clauses and the limit of
nesting is kept. -/
theorem exists_parse_text_iff_of_complete (hraw : w.containsRaw = false)
    (hdrafts : ∀ d ∈ w.toClause.drafts, d.Reachable Literal.IsGiven)
    (hcomplete : ∀ d ∈ w.toClause.drafts, d.IsComplete) :
    (∃ e, Expr.parse w.text = .ok e) ↔
      (∀ g ∈ w.toClause.groups, g.2 ≠ []) ∧ w.nesting ≤ nestingLimit := by
  obtain ⟨e, he, hwritable⟩ := exists_denotes_of_complete hraw hdrafts hcomplete
  constructor
  · rintro ⟨e', he'⟩
    obtain ⟨hne, hnesting, -⟩ := (he.parse_text_eq_ok_iff hwritable).1 he'
    exact ⟨hne, hnesting⟩
  · rintro ⟨hne, hnesting⟩
    exact ⟨e.canonical, (he.parse_text_eq_ok_iff hwritable).2 ⟨hne, hnesting, rfl⟩⟩

/-- **Which groups have an expression behind their text**: without raw text exactly the complete
ones. One incomplete draft, or one group without clauses, makes a syntax error of the whole text. -/
theorem exists_parse_text_iff (hraw : w.containsRaw = false)
    (hdrafts : ∀ d ∈ w.toClause.drafts, d.Reachable Literal.IsGiven) :
    ((∃ e, Expr.parse w.text = .ok e) ↔ w.IsComplete) ∧
    (∀ d ∈ w.toClause.drafts, ¬ d.IsComplete → ∃ fault, Expr.parse w.text = .error fault) ∧
    (∀ g ∈ w.toClause.groups, g.2 = [] → ∃ fault, Expr.parse w.text = .error fault) := by
  have hiff : (∃ e, Expr.parse w.text = .ok e) ↔ w.IsComplete := by
    constructor
    · intro h
      have hcomplete := drafts_complete_of_parse hraw hdrafts h
      obtain ⟨hne, hnesting⟩ := (exists_parse_text_iff_of_complete hraw hdrafts hcomplete).1 h
      exact ⟨hne, hcomplete, hnesting⟩
    · rintro ⟨hne, hcomplete, hnesting⟩
      exact (exists_parse_text_iff_of_complete hraw hdrafts hcomplete).2 ⟨hne, hnesting⟩
  have hrefused : ¬ w.IsComplete → ∃ fault, Expr.parse w.text = .error fault := by
    intro h
    cases hparse : Expr.parse w.text with
    | error fault => exact ⟨fault, rfl⟩
    | ok e => exact absurd (hiff.1 ⟨e, hparse⟩) h
  refine ⟨hiff, fun d hd hincomplete => hrefused ?_, fun g hg hempty => hrefused ?_⟩
  · exact fun h => hincomplete (h.drafts_complete d hd)
  · exact fun h => h.clauses_ne_nil g hg hempty

/-- A bare property between complete drafts, and a comparison with minus infinity in an inner group,
make syntax errors of texts that are accepted when the drafts are completed. -/
theorem exists_parse_text_iff_completed : ∃ bare infinite completed : Where,
    bare.text = "(\"a\" exists and \"b\" and \"c\" missing)" ∧
    (∃ fault, Expr.parse bare.text = .error fault) ∧
    infinite.text = "(\"a\" exists and (\"b\" < -inf))" ∧
    (∃ fault, Expr.parse infinite.text = .error fault) ∧
    completed.text = "(\"a\" exists and (\"b\" missing))" ∧
    ∃ e, Expr.parse completed.text = .ok e := by
  let a : Draft := ⟨some "a", some .present, none⟩
  let b : Draft := ⟨some "b", none, none⟩
  let minusInfinity : Binary64 := ⟨true, ⟨Binary64.infinityRank, by decide⟩⟩
  let below : Draft := ⟨some "b", some .less, some (.ofBinary64 minusInfinity)⟩
  let missing : Draft := ⟨some "b", some .missing, none⟩
  let c : Draft := ⟨some "c", some .missing, none⟩
  have hnamed (property : String) :
      (⟨some property, none, none⟩ : Draft).Reachable Literal.IsGiven :=
    .step .empty (s := .newProperty property) (by simp [Draft.Step.value?]) rfl
  have ha : a.Reachable Literal.IsGiven :=
    .step (hnamed "a") (s := .present) (by simp [Draft.Step.value?]) rfl
  have hb : b.Reachable Literal.IsGiven := hnamed "b"
  have hbelow : below.Reachable Literal.IsGiven := by
    refine .step hb (s := .relate .less rfl (.ofBinary64 minusInfinity)) ?_ rfl
    simpa [Draft.Step.value?] using .nonFinite minusInfinity (by decide)
  have hmissing : missing.Reachable Literal.IsGiven :=
    .step hb (s := .missing) (by simp [Draft.Step.value?]) rfl
  have hc : c.Reachable Literal.IsGiven :=
    .step (hnamed "c") (s := .missing) (by simp [Draft.Step.value?]) rfl
  refine ⟨⟨some .and, [.draft a, .draft b, .draft c]⟩,
    ⟨some .and, [.draft a, .nested none [.draft below]]⟩,
    ⟨some .and, [.draft a, .nested none [.draft missing]]⟩, ?_, ?_, ?_, ?_, ?_, ?_⟩
  · decide +kernel
  · refine (exists_parse_text_iff rfl ?_).2.1 b ?_ ?_
    · simp [toClause, Clause.drafts, Clause.draftsOfAll, ha, hb, hc]
    · simp [toClause, Clause.drafts, Clause.draftsOfAll]
    · rintro ⟨-, ⟨op, hop⟩, -⟩
      simp [b] at hop
  · decide +kernel
  · refine (exists_parse_text_iff rfl ?_).2.1 below ?_ ?_
    · simp [toClause, Clause.drafts, Clause.draftsOfAll, ha, hbelow]
    · simp [toClause, Clause.drafts, Clause.draftsOfAll]
    · intro h
      exact h.kind_ne .less rfl rfl _ rfl rfl
  · decide +kernel
  · refine (exists_parse_text_iff rfl ?_).1.2 ⟨?_, ?_, ?_⟩
    · simp [toClause, Clause.drafts, Clause.draftsOfAll, ha, hmissing]
    · simp [toClause, Clause.groups, Clause.groupsOfAll]
    · intro d hd
      obtain rfl | rfl : d = a ∨ d = missing := by
        simpa [toClause, Clause.drafts, Clause.draftsOfAll] using hd
      · exact ⟨⟨"a", rfl, by decide⟩, ⟨.present, rfl⟩, by simp [a]⟩
      · exact ⟨⟨"b", rfl, by decide⟩, ⟨.missing, rfl⟩, by simp [missing]⟩
    · decide

end Where

end RecordFilter
