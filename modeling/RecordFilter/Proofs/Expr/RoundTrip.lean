import RecordFilter.Proofs.Expr.Shape
import RecordFilter.Proofs.Expr.Tokens
import RecordFilter.Proofs.Parser.Acceptance

/-!
# Expressions are read back from their texts

The printer writes derivations: an expression whose conditions the language has, and whose groups
have children, is the canonical form of what some `Term` denotes, and its tokens are those of that
term (`exists_term`). Since the parser reads each text with the only derivation that it has,
`parse_text_eq_ok_iff` says what comes back from the text of any expression with writable
conditions: nothing if a group is empty or the limit of nesting is passed, and the canonical form
otherwise. `parse_text` is the case in which this is the expression itself.
-/

namespace RecordFilter

namespace Grammar

/-! ### Groups of given terms -/

/-- Joined terms with more terms behind them. -/
def Terms.behind (ts : Terms) : List Term → Terms
  | [] => ts
  | t :: rest => (ts.snoc t).behind rest

/-- The group of a term and those behind it, with a join word between them. -/
def Group.ofTerms (join : Join) (t : Term) : List Term → Group
  | [] => .lone t
  | t' :: rest => .joined join ((Terms.pair t t').behind rest)

/-- The greatest depth of some terms. -/
def depthOfAll (ts : List Term) : Nat := ts.foldr (fun t depth => max t.depth depth) 0

theorem Terms.exprs_behind (ts : Terms) (rest : List Term) :
    (ts.behind rest).exprs = ts.exprs ++ rest.map Term.expr := by
  induction rest generalizing ts with
  | nil => simp [behind]
  | cons t rest ih => rw [behind, ih, Terms.exprs, List.append_assoc]; rfl

theorem Terms.depth_behind (ts : Terms) (rest : List Term) :
    (ts.behind rest).depth = max ts.depth (depthOfAll rest) := by
  induction rest generalizing ts with
  | nil => simp [behind, depthOfAll]
  | cons t rest ih => rw [behind, ih, Terms.depth, Nat.max_assoc]; rfl

theorem Terms.tokens_behind (join : Join) (ts : Terms) (rest : List Term) :
    (ts.behind rest).tokens join =
      ts.tokens join ++ rest.flatMap fun t => .join join :: t.tokens := by
  induction rest generalizing ts with
  | nil => simp [behind]
  | cons t rest ih => rw [behind, ih, Terms.tokens, List.append_assoc]; rfl

theorem joined_cons (join : Join) (ts : List Token) (tss : List (List Token)) :
    Token.joined join (ts :: tss) = ts ++ tss.flatMap fun ts' => .join join :: ts' := by
  induction tss generalizing ts with
  | nil => simp [Token.joined]
  | cons ts' tss ih =>
    have htail := ih ts'
    simp only [Token.joined] at htail
    rw [Token.joined, List.intercalate_cons_cons, htail]
    simp

theorem Group.tokens_ofTerms (join : Join) (t : Term) (rest : List Term) :
    (Group.ofTerms join t rest).tokens = Token.joined join ((t :: rest).map Term.tokens) := by
  rw [List.map_cons, joined_cons, List.flatMap_map]
  cases rest with
  | nil => simp [ofTerms, Group.tokens]
  | cons t' rest => simp [ofTerms, Group.tokens, Terms.tokens_behind, Terms.tokens]

theorem Group.exprs_ofTerms (join : Join) (t : Term) (rest : List Term) :
    (Group.ofTerms join t rest).exprs = (t :: rest).map Term.expr := by
  cases rest with
  | nil => rfl
  | cons t' rest => simp [ofTerms, Group.exprs, Terms.exprs_behind, Terms.exprs]

theorem Group.depth_ofTerms (join : Join) (t : Term) (rest : List Term) :
    (Group.ofTerms join t rest).depth = depthOfAll (t :: rest) := by
  cases rest with
  | nil => simp [ofTerms, Group.depth, depthOfAll]
  | cons t' rest => simp [ofTerms, Group.depth, Terms.depth_behind, Terms.depth, depthOfAll]

/-- The term of a group in parentheses denotes a group of what its terms denote. Its join counts
only if there are more terms than one. -/
theorem Term.expr_ofTerms (join : Join) (t : Term) (rest : List Term) :
    (Term.parenthesised (.ofTerms join t rest)).expr =
      .group (if (t :: rest).length = 1 then .and else join) ((t :: rest).map Term.expr) := by
  rw [Term.expr, Group.exprs_ofTerms]
  cases rest <;> simp [Group.ofTerms, Group.join?]

/-! ### The derivation of an expression -/

/-- A literal that can be written is what an operand denotes. -/
theorem exists_operand {v : Literal} (h : v.IsWritable) :
    ∃ o : Operand, [o.token] = v.tokens ∧ o.literal = v := by
  cases v with
  | boolean b => exact ⟨.boolean b, rfl, rfl⟩
  | number n => exact ⟨.number n, rfl, rfl⟩
  | string s =>
    refine ⟨.string s, rfl, ?_⟩
    rw [Operand.literal, Literal.ofText, if_neg (by rw [h]; decide)]
  | date s => exact ⟨.string s, rfl, if_pos h⟩
  | nonFinite x => exact h.elim

/-- A condition that can be written is what a phrase denotes. -/
theorem exists_phrase {c : Condition} (h : c.IsWritable) :
    ∃ p : Phrase, p.tokens = c.tokens ∧ p.toCondition = c := by
  obtain ⟨property, op, value⟩ := c
  obtain ⟨hproperty, hsome, hvalue⟩ := h
  cases value with
  | none => exact ⟨.bare property hproperty op hsome.symm, rfl, rfl⟩
  | some v =>
    obtain ⟨operand, htokens, hliteral⟩ := exists_operand (hvalue v rfl)
    refine ⟨.valued property hproperty op hsome.symm operand, ?_, ?_⟩
    · simp [Phrase.tokens, Condition.tokens, ← htokens]
    · rw [Phrase.toCondition, hliteral]

mutual

/-- **The printer writes derivations**: the tokens of an expression that can be written are those
of a term, and the term denotes its canonical form. -/
theorem exists_term : ∀ e : Expr, (∀ c ∈ e.conditions, c.IsWritable) →
    (∀ g ∈ e.groups, g.2 ≠ []) →
    ∃ t : Term, t.tokens = e.tokens ∧ t.expr = e.canonical ∧ t.depth = e.height
  | .condition c, hc, _ => by
    obtain ⟨p, htokens, hcondition⟩ := exists_phrase (hc c (by simp [Expr.conditions]))
    refine ⟨.condition p, htokens, ?_, rfl⟩
    rw [Term.expr, hcondition, Expr.canonical]
  | .group join children, hc, hg => by
    obtain ⟨ts, htokens, hexprs, hdepth⟩ :=
      exists_terms children hc fun g hmem => hg g (List.mem_cons_of_mem _ hmem)
    have hne : children ≠ [] := hg (join, children) List.mem_cons_self
    have hlength : ts.length = children.length := by
      rw [← Expr.length_canonicalAll children, ← hexprs, List.length_map]
    -- the group has children, so there is a first term and a list of others
    cases ts with
    | nil => exact absurd (List.length_eq_zero_iff.1 hlength.symm) hne
    | cons t rest =>
      refine ⟨.parenthesised (.ofTerms join t rest), ?_, ?_, ?_⟩
      · rw [Term.tokens, Group.tokens_ofTerms, htokens, Expr.tokens]
      · rw [Term.expr_ofTerms, hexprs, hlength, Expr.canonical]
      · rw [Term.depth, Group.depth_ofTerms, hdepth, Expr.height]

theorem exists_terms : ∀ es : List Expr, (∀ c ∈ Expr.conditionsOfAll es, c.IsWritable) →
    (∀ g ∈ Expr.groupsOfAll es, g.2 ≠ []) →
    ∃ ts : List Term, ts.map Term.tokens = Expr.tokensOfAll es ∧
      ts.map Term.expr = Expr.canonicalAll es ∧ depthOfAll ts = Expr.heightOfAll es
  | [], _, _ => ⟨[], rfl, rfl, rfl⟩
  | e :: es, hc, hg => by
    obtain ⟨t, htokens, hexpr, hdepth⟩ := exists_term e
      (fun c hmem => hc c (List.mem_append_left _ hmem))
      (fun g hmem => hg g (List.mem_append_left _ hmem))
    obtain ⟨ts, htokens', hexprs, hdepths⟩ := exists_terms es
      (fun c hmem => hc c (List.mem_append_right _ hmem))
      (fun g hmem => hg g (List.mem_append_right _ hmem))
    refine ⟨t :: ts, ?_, ?_, ?_⟩
    · rw [List.map_cons, htokens, htokens', Expr.tokensOfAll]
    · rw [List.map_cons, hexpr, hexprs, Expr.canonicalAll]
    · rw [Expr.heightOfAll, ← hdepth, ← hdepths]
      rfl

end

/-! ### Empty groups -/

/-- A parenthesis that opens is never closed at once. -/
theorem Group.not_infix_tokens {g : Group} (hdepth : g.depth ≤ nestingLimit) :
    ¬ [.opening, .closing] <:+: g.tokens := by
  rintro ⟨before, behind, htokens⟩
  obtain ⟨bare, hreads⟩ := reads_group g [] (by simpa using hdepth)
  rw [← htokens, List.append_assoc] at hreads
  obtain ⟨s, -, hbehind⟩ := hreads.split
  -- behind an opening parenthesis a term is expected, and a closing one starts none
  cases hbehind with
  | cons hopening hbehind =>
    cases hbehind with
    | cons hclosing _ =>
      cases hopening with
      | opening =>
        cases hclosing with
        | closing he => cases he
        | value he => cases he
      | value _ hoperand => simp [Parser.operand?] at hoperand

end Grammar

namespace Expr

theorem infix_joined {ts : List Token} {tss : List (List Token)} (join : Join) (h : ts ∈ tss) :
    ts <:+: Token.joined join tss := by
  cases tss with
  | nil => simp at h
  | cons ts' tss =>
    rw [Grammar.joined_cons]
    rcases List.mem_cons.1 h with rfl | hmem
    · exact (List.prefix_append _ _).isInfix
    · obtain ⟨before, behind, hsplit⟩ := List.append_of_mem hmem
      refine ⟨ts' ++ before.flatMap (fun ts => .join join :: ts) ++ [.join join],
        behind.flatMap fun ts => .join join :: ts, ?_⟩
      simp [hsplit]

mutual

/-- An empty group is written as a parenthesis that is closed at once. -/
theorem infix_tokens : ∀ e : Expr, (∃ g ∈ e.groups, g.2 = []) →
    [.opening, .closing] <:+: e.tokens
  | condition _, h => by simp [groups] at h
  | group join children, h => by
    rw [tokens]
    cases children with
    | nil => simp [tokensOfAll, Token.joined]
    | cons e es =>
      obtain ⟨g, hmem, hempty⟩ := h
      rcases List.mem_cons.1 hmem with rfl | hmem
      · simp at hempty
      · obtain ⟨ts, hts, hinfix⟩ := infix_tokensOfAll (e :: es) ⟨g, hmem, hempty⟩
        have hinside := hinfix.trans (infix_joined join hts)
        exact (hinside.trans (List.prefix_append _ _).isInfix).trans
          (List.suffix_cons _ _).isInfix

theorem infix_tokensOfAll : ∀ es : List Expr, (∃ g ∈ groupsOfAll es, g.2 = []) →
    ∃ ts ∈ tokensOfAll es, [.opening, .closing] <:+: ts
  | [], h => by simp [groupsOfAll] at h
  | e :: es, ⟨g, hmem, hempty⟩ => by
    rcases List.mem_append.1 hmem with hmem | hmem
    · exact ⟨e.tokens, List.mem_cons_self, infix_tokens e ⟨g, hmem, hempty⟩⟩
    · obtain ⟨ts, hts, hinfix⟩ := infix_tokensOfAll es ⟨g, hmem, hempty⟩
      exact ⟨ts, List.mem_cons_of_mem _ hts, hinfix⟩

end

/-! ### Round trips -/

/-- **What comes back from a text**: nothing if a group is empty or too many groups are nested,
and the canonical form of the expression otherwise. -/
theorem parse_text_eq_ok_iff {e e' : Expr} (h : ∀ c ∈ e.conditions, c.IsWritable) :
    Expr.parse e.text = .ok e' ↔
      (∀ g ∈ e.groups, g.2 ≠ []) ∧ e.height ≤ nestingLimit ∧ e' = e.canonical := by
  have hspells := (writes_text e fun c hc => (h c hc).value_writable).spells
  obtain ⟨lexemes, hlexemes, htokens⟩ := hspells.exists_tokenize
  rw [Grammar.parse_eq_ok_iff_derivation hlexemes, htokens]
  constructor
  · rintro ⟨g, hg, hdepth, rfl⟩
    have hne : ∀ g ∈ e.groups, g.2 ≠ [] := by
      intro g' hmem hempty
      exact Grammar.Group.not_infix_tokens hdepth (hg ▸ infix_tokens e ⟨g', hmem, hempty⟩)
    -- the derivation that was found can only be the one that was printed
    obtain ⟨t, ht, hexpr, hheight⟩ := Grammar.exists_term e h hne
    have hlone : g = .lone t := Grammar.Group.eq_of_tokens_eq (hg.trans ht.symm) hdepth
    subst hlone
    exact ⟨hne, hheight ▸ hdepth, hexpr⟩
  · rintro ⟨hne, hheight, rfl⟩
    obtain ⟨t, ht, hexpr, hdepth⟩ := Grammar.exists_term e h hne
    refine ⟨.lone t, ht, ?_, hexpr⟩
    rw [Grammar.Group.depth, hdepth]
    exact hheight

/-- The expression is what its text denotes: the language has its conditions, its groups have
children, a join that is not written is `and`, and the limit of nesting is kept. -/
structure IsWritable (e : Expr) : Prop where
  conditions_writable : ∀ c ∈ e.conditions, c.IsWritable
  children_ne_nil : ∀ g ∈ e.groups, g.2 ≠ []
  lone_join : ∀ g ∈ e.groups, g.2.length = 1 → g.1 = .and
  height_le : e.height ≤ nestingLimit

instance : DecidablePred IsWritable := fun e =>
  decidable_of_iff
    ((∀ c ∈ e.conditions, c.IsWritable) ∧ (∀ g ∈ e.groups, g.2 ≠ []) ∧
      (∀ g ∈ e.groups, g.2.length = 1 → g.1 = .and) ∧ e.height ≤ nestingLimit)
    ⟨fun ⟨hconditions, hchildren, hjoin, hheight⟩ => ⟨hconditions, hchildren, hjoin, hheight⟩,
      fun h => ⟨h.conditions_writable, h.children_ne_nil, h.lone_join, h.height_le⟩⟩

/-- **Parsing undoes printing.** -/
theorem parse_text {e : Expr} (h : e.IsWritable) : Expr.parse e.text = .ok e := by
  have hcanonical : e.canonical = e := (canonical_eq_self_iff e).2 h.lone_join
  refine (parse_text_eq_ok_iff h.conditions_writable).2 ⟨h.children_ne_nil, h.height_le, ?_⟩
  exact hcanonical.symm

set_option maxRecDepth 2000 in
/-- Quotes, a line break and words of the language inside texts, a group with one child, the
greatest integer, and an operator without an operand. -/
theorem parse_text_mixed : ∃ e : Expr, e.IsWritable ∧
    e.text = "(\"a \\\"and\\\"\\n(\" == \"or )\" or (\"day\" <= \"2024-02-29\") or " ++
      "\"n\" != 18446744073709551615 or \"p\" missing)" ∧
    Expr.parse e.text = .ok e := by
  let e : Expr := .group .or [.condition ⟨"a \"and\"\n(", .equal, some (.string "or )")⟩,
    .group .and [.condition ⟨"day", .atMost, some (.date "2024-02-29")⟩],
    .condition ⟨"n", .notEqual, some (.number (.integer 18446744073709551615 (by decide)))⟩,
    .condition ⟨"p", .missing, none⟩]
  have hwritable : e.IsWritable := by decide +kernel
  exact ⟨e, hwritable, by decide +kernel, parse_text hwritable⟩

end Expr

end RecordFilter
