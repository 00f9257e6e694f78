import RecordFilter.Proofs.Expr.Shape
import RecordFilter.Proofs.Expr.Tokens
import RecordFilter.Proofs.Parser.Acceptance

/-!
# What a text denotes is well formed

`Expr.IsWellFormed` is all that a compilation asks of an expression before it looks at operators:
conditions name a property and have an operand exactly if their operator takes one, groups have
children, and no more groups enclose a group than the limit allows. Whatever parses is well formed
(`Expr.isWellFormed_of_parse`), and its conditions are those of the text in the order of the text
(`Expr.tokens_conditions_of_parse`).

The two limits of nesting count differently. At most `nestingLimit` parentheses are open at once,
and a text with a join word outside them denotes one group more than it has parentheses.
-/

namespace RecordFilter

/-- The condition names a property, has an operand exactly if its operator takes one, and no
operand that is not finite. -/
structure Condition.IsWellFormed (c : Condition) : Prop where
  property_ne : c.property ≠ ""
  isSome_value : c.value.isSome = c.operator.takesValue
  kind_ne : c.kind ≠ .nonFinite

/-- The conditions of the expression are well formed, its groups have children, and at most
`nestingLimit` groups enclose a group. -/
structure Expr.IsWellFormed (e : Expr) : Prop where
  conditions_wellFormed : ∀ c ∈ e.conditions, c.IsWellFormed
  children_ne_nil : ∀ g ∈ e.groups, g.2 ≠ []
  height_le : e.height ≤ nestingLimit + 1

/-- A condition that can be written is well formed. -/
theorem Condition.IsWritable.isWellFormed {c : Condition} (h : c.IsWritable) :
    c.IsWellFormed where
  property_ne := h.property_ne
  isSome_value := h.isSome_value
  kind_ne := by
    cases hvalue : c.value with
    | none => simp [kind, hvalue]
    | some v => simpa [kind, hvalue] using (h.value_writable v hvalue).kind_ne

/-- The token is part of a condition, and neither a join word nor a parenthesis. -/
def Token.isOfCondition : Token → Bool
  | .string _ | .number _ | .boolean _ | .operator _ => true
  | _ => false

namespace Grammar

/-- What the expressions that a derivation denotes have in common with its tokens and its
depth. -/
structure Denotation (ts : List Token) (depth : Nat) (es : List Expr) : Prop where
  conditions_wellFormed : ∀ c ∈ Expr.conditionsOfAll es, c.IsWellFormed
  children_ne_nil : ∀ g ∈ Expr.groupsOfAll es, g.2 ≠ []
  height_eq : Expr.heightOfAll es = depth
  tokens_eq : ts.filter Token.isOfCondition =
    (Expr.conditionsOfAll es).flatMap Condition.tokens

namespace Denotation

variable {ts ts' : List Token} {depth depth' : Nat} {es es' : List Expr}

/-- A join word denotes nothing of its own. -/
theorem join (j : Join) : Denotation [.join j] 0 [] :=
  ⟨by simp [Expr.conditionsOfAll], by simp [Expr.groupsOfAll], rfl, rfl⟩

theorem append (h : Denotation ts depth es) (h' : Denotation ts' depth' es') :
    Denotation (ts ++ ts') (max depth depth') (es ++ es') where
  conditions_wellFormed := by
    intro c hc
    rw [Expr.conditionsOfAll_append] at hc
    rcases List.mem_append.1 hc with hc | hc
    · exact h.conditions_wellFormed c hc
    · exact h'.conditions_wellFormed c hc
  children_ne_nil := by
    intro g hg
    rw [Expr.groupsOfAll_append] at hg
    rcases List.mem_append.1 hg with hg | hg
    · exact h.children_ne_nil g hg
    · exact h'.children_ne_nil g hg
  height_eq := by rw [Expr.heightOfAll_append, h.height_eq, h'.height_eq]
  tokens_eq := by
    rw [List.filter_append, h.tokens_eq, h'.tokens_eq, Expr.conditionsOfAll_append,
      List.flatMap_append]

/-- Terms with a join word between them. -/
theorem joined (j : Join) (h : Denotation ts depth es) (h' : Denotation ts' depth' es') :
    Denotation (ts ++ .join j :: ts') (max depth depth') (es ++ es') := by
  have hbehind : Denotation (.join j :: ts') (max 0 depth') es' := (join j).append h'
  rw [Nat.zero_max] at hbehind
  exact h.append hbehind

/-- Parentheses make a group of what is inside. -/
theorem parenthesised (j : Join) (h : Denotation ts depth es) (hne : es ≠ []) :
    Denotation (.opening :: (ts ++ [.closing])) (depth + 1) [.group j es] where
  conditions_wellFormed := by
    simpa [Expr.conditionsOfAll, Expr.conditions] using h.conditions_wellFormed
  children_ne_nil := by
    simpa [Expr.groupsOfAll, Expr.groups, hne] using h.children_ne_nil
  height_eq := by simp [Expr.heightOfAll, Expr.height, h.height_eq]
  tokens_eq := by
    simp [Token.isOfCondition, h.tokens_eq, Expr.conditionsOfAll, Expr.conditions]

end Denotation

/-! ### Derivations -/

theorem Operand.kind_literal_ne (o : Operand) : o.literal.kind ≠ .nonFinite := by
  cases o with
  | string s => rcases ofText_cases s with hs | hs <;> simp [literal, hs, Literal.kind]
  | number n => simp [literal, Literal.kind]
  | boolean b => simp [literal, Literal.kind]

theorem Operand.tokens_literal (o : Operand) : o.literal.tokens = [o.token] := by
  cases o with
  | string s => rcases ofText_cases s with hs | hs <;> simp [literal, hs, Literal.tokens, token]
  | number n => rfl
  | boolean b => rfl

theorem Phrase.isWellFormed_toCondition (p : Phrase) : p.toCondition.IsWellFormed := by
  cases p with
  | bare property nonempty op takesNone =>
    exact ⟨nonempty, takesNone.symm, by simp [toCondition, Condition.kind]⟩
  | valued property nonempty op takesValue operand =>
    exact ⟨nonempty, takesValue.symm, operand.kind_literal_ne⟩

theorem Phrase.denotation (p : Phrase) : Denotation p.tokens 0 [.condition p.toCondition] where
  conditions_wellFormed := by
    simpa [Expr.conditionsOfAll, Expr.conditions] using p.isWellFormed_toCondition
  children_ne_nil := by simp [Expr.groupsOfAll, Expr.groups]
  height_eq := rfl
  tokens_eq := by
    cases p with
    | bare property _ op _ => rfl
    | valued property _ op _ operand =>
      simp only [toCondition, Expr.conditionsOfAll, Expr.conditions, Condition.tokens,
        List.append_nil, List.flatMap_cons, List.flatMap_nil, operand.tokens_literal]
      cases operand <;> rfl

theorem Group.exprs_ne_nil (g : Group) : g.exprs ≠ [] := by
  cases g with
  | lone t => simp [Group.exprs]
  | joined join ts =>
    intro h
    have hlength := ts.two_le_length_exprs
    rw [Group.exprs] at h
    simp [h] at hlength

mutual

theorem Term.denotation : ∀ t : Term, Denotation t.tokens t.depth [t.expr]
  | .condition p => p.denotation
  | .parenthesised g => (Group.denotation g).parenthesised _ g.exprs_ne_nil

theorem Group.denotation : ∀ g : Group, Denotation g.tokens g.depth g.exprs
  | .lone t => Term.denotation t
  | .joined join ts => Terms.denotation join ts

theorem Terms.denotation (join : Join) : ∀ ts : Terms,
    Denotation (ts.tokens join) ts.depth ts.exprs
  | .pair first second => (Term.denotation first).joined join (Term.denotation second)
  | .snoc ts t => (Terms.denotation join ts).joined join (Term.denotation t)

end

/-- The conditions of a whole text are those of its terms. -/
theorem Group.conditions_expr : ∀ g : Group, g.expr.conditions = Expr.conditionsOfAll g.exprs
  | .lone t => by simp [Group.expr, Group.exprs, Expr.conditionsOfAll]
  | .joined _ _ => rfl

theorem Group.children_ne_nil_expr (g : Group) : ∀ g' ∈ g.expr.groups, g'.2 ≠ [] := by
  have hterms := g.denotation.children_ne_nil
  cases g with
  | lone t => simpa [Group.expr, Group.exprs, Expr.groupsOfAll] using hterms
  | joined join ts =>
    have hne : ts.exprs ≠ [] := (Group.joined join ts).exprs_ne_nil
    intro g' hg'
    rcases List.mem_cons.1 hg' with rfl | hg'
    · exact hne
    · exact hterms g' hg'

/-- A join word outside all parentheses makes one more group than there are parentheses. -/
theorem Group.height_expr_le (g : Group) : g.expr.height ≤ g.depth + 1 := by
  have hheight := g.denotation.height_eq
  cases g with
  | lone t =>
    simp only [Group.exprs, Expr.heightOfAll, Nat.max_zero] at hheight
    rw [Group.expr, hheight]
    exact Nat.le_succ _
  | joined join ts =>
    rw [Group.exprs] at hheight
    exact Nat.le_of_eq (congrArg (· + 1) hheight)

theorem Group.isWellFormed_expr {g : Group} (h : g.depth ≤ nestingLimit) :
    g.expr.IsWellFormed where
  conditions_wellFormed := by
    rw [g.conditions_expr]
    exact g.denotation.conditions_wellFormed
  children_ne_nil := g.children_ne_nil_expr
  height_le := Nat.le_trans g.height_expr_le (Nat.succ_le_succ h)

end Grammar

/-! ### Texts -/

namespace Expr

variable {text : String} {e : Expr}

/-- **What parses is well formed.** -/
theorem isWellFormed_of_parse (h : parse text = .ok e) : e.IsWellFormed := by
  obtain ⟨lexemes, hlexemes⟩ := exists_tokenize_of_parse h
  obtain ⟨g, -, hdepth, rfl⟩ := (Grammar.parse_eq_ok_iff_derivation hlexemes).1 h
  exact Grammar.Group.isWellFormed_expr hdepth

/-- The conditions of an expression have the tokens of its text, in the order of the text and
without the join words and the parentheses. -/
theorem tokens_conditions_of_parse {lexemes : List Lexeme}
    (hlexemes : Token.tokenize text = .ok lexemes) (h : parse text = .ok e) :
    e.conditions.flatMap Condition.tokens =
      (lexemes.map Lexeme.token).filter Token.isOfCondition := by
  obtain ⟨g, htokens, -, rfl⟩ := (Grammar.parse_eq_ok_iff_derivation hlexemes).1 h
  rw [← htokens, g.denotation.tokens_eq, g.conditions_expr]

end Expr

end RecordFilter
