import RecordFilter.Expr
import RecordFilter.SyntaxError

/-!
# The grammar of filter expressions

Derivations as data. A `Group` is a term, or terms with one and the same join word between them;
a `Term` is a group in parentheses or a condition; a condition is a `Phrase`: a property, an
operator, and an operand exactly if the operator takes one. `tokens` is what a derivation
derives, `expr` the expression that it denotes, and `depth` the greatest number of parentheses
that stand inside each other in it.

`IsSentence ts` says that some derivation derives the tokens and that never more than
`nestingLimit` parentheses are open at once (`mostOpen`, which `mostOpen_tokens` relates to the
depth). Derivations can be told apart by what they denote (`Group.eq_of_exprs_eq`): a group has a
join word exactly if it has more terms than one.
-/

namespace RecordFilter.Grammar

/-! ### Derivations -/

/-- An operand: a quoted text, a number, or a boolean. -/
inductive Operand where
  | string (s : String)
  | number (n : Number)
  | boolean (b : Bool)

/-- A condition. Its operator decides whether an operand follows. -/
inductive Phrase where
  | bare (property : String) (nonempty : property ≠ "") (op : Operator)
      (takesNone : op.takesValue = false)
  | valued (property : String) (nonempty : property ≠ "") (op : Operator)
      (takesValue : op.takesValue = true) (operand : Operand)

mutual

/-- A term of a group. -/
inductive Term where
  | condition (p : Phrase)
  | parenthesised (g : Group)

/-- What stands between parentheses, or is a whole text. -/
inductive Group where
  | lone (t : Term)
  | joined (join : Join) (ts : Terms)

/-- Two terms or more, with a join word between them that the group has chosen. -/
inductive Terms where
  | pair (first second : Term)
  | snoc (ts : Terms) (t : Term)

end

/-! ### What derivations derive -/

/-- The token that an operand is. -/
def Operand.token : Operand → Token
  | string s => .string s
  | number n => .number n
  | boolean b => .boolean b

/-- The tokens of a condition. -/
def Phrase.tokens : Phrase → List Token
  | bare property _ op _ => [.string property, .operator op]
  | valued property _ op _ operand => [.string property, .operator op, operand.token]

mutual

/-- The tokens of a term. -/
def Term.tokens : Term → List Token
  | .condition p => p.tokens
  | .parenthesised g => .opening :: (g.tokens ++ [.closing])

/-- The tokens of a group, without parentheses around it. -/
def Group.tokens : Group → List Token
  | .lone t => t.tokens
  | .joined join ts => ts.tokens join

/-- The tokens of joined terms. -/
def Terms.tokens (join : Join) : Terms → List Token
  | .pair first second => first.tokens ++ .join join :: second.tokens
  | .snoc ts t => ts.tokens join ++ .join join :: t.tokens

end

/-! ### What derivations denote -/

/-- The literal that an operand denotes. -/
def Operand.literal : Operand → Literal
  | string s => .ofText s
  | number n => .number n
  | boolean b => .boolean b

/-- The condition that a phrase denotes. -/
def Phrase.toCondition : Phrase → Condition
  | bare property _ op _ => ⟨property, op, none⟩
  | valued property _ op _ operand => ⟨property, op, some operand.literal⟩

/-- The join word of a group, if it has one. -/
def Group.join? : Group → Option Join
  | .lone _ => none
  | .joined join _ => some join

mutual

/-- The expression of a term. Parentheses make a group, joined by `and` without a join word. -/
def Term.expr : Term → Expr
  | .condition p => .condition p.toCondition
  | .parenthesised g => .group (g.join?.getD .and) g.exprs

/-- The expressions of the terms of a group, in their order. -/
def Group.exprs : Group → List Expr
  | .lone t => [t.expr]
  | .joined _ ts => ts.exprs

/-- The expressions of joined terms, in their order. -/
def Terms.exprs : Terms → List Expr
  | .pair first second => [first.expr, second.expr]
  | .snoc ts t => ts.exprs ++ [t.expr]

end

/-- The expression of a whole text: a lone term stays what it is, and joined terms are a group. -/
def Group.expr : Group → Expr
  | .lone t => t.expr
  | .joined join ts => .group join ts.exprs

/-! ### Nesting -/

mutual

/-- The greatest number of parentheses inside each other in a term. -/
def Term.depth : Term → Nat
  | .condition _ => 0
  | .parenthesised g => g.depth + 1

/-- The greatest number of parentheses inside each other in a group. -/
def Group.depth : Group → Nat
  | .lone t => t.depth
  | .joined _ ts => ts.depth

/-- The greatest number of parentheses inside each other in joined terms. -/
def Terms.depth : Terms → Nat
  | .pair first second => max first.depth second.depth
  | .snoc ts t => max ts.depth t.depth

end

/-- The greatest number of parentheses open at once while tokens are read, when a number of them
is open before. -/
def mostOpen (opened : Nat) : List Token → Nat
  | [] => opened
  | .opening :: ts => mostOpen (opened + 1) ts
  | .closing :: ts => max opened (mostOpen (opened - 1) ts)
  | _ :: ts => mostOpen opened ts

/-- The tokens have a derivation and stay within the limit of nesting. -/
def IsSentence (ts : List Token) : Prop :=
  (∃ g : Group, g.tokens = ts) ∧ mostOpen 0 ts ≤ nestingLimit

theorem le_mostOpen (opened : Nat) (ts : List Token) : opened ≤ mostOpen opened ts := by
  fun_induction mostOpen opened ts with
  | case1 => exact Nat.le_refl _
  | case2 _ _ ih => omega
  | case3 => exact Nat.le_max_left ..
  | case4 _ _ _ _ _ ih => exact ih

@[simp]
theorem mostOpen_operand (opened : Nat) (o : Operand) (rest : List Token) :
    mostOpen opened (o.token :: rest) = mostOpen opened rest := by
  cases o <;> rfl

theorem mostOpen_phrase (opened : Nat) (p : Phrase) (rest : List Token) :
    mostOpen opened (p.tokens ++ rest) = mostOpen opened rest := by
  cases p <;> simp [Phrase.tokens, mostOpen]

mutual

theorem Term.mostOpen_tokens (opened : Nat) (rest : List Token) : ∀ t : Term,
    mostOpen opened (t.tokens ++ rest) = max (opened + t.depth) (mostOpen opened rest)
  | .condition p => by
    have hle := le_mostOpen opened rest
    rw [Term.tokens, mostOpen_phrase, Term.depth]
    omega
  | .parenthesised g => by
    -- one more is open inside, and behind the closing parenthesis as many as before
    have hg := Group.mostOpen_tokens (opened + 1) (.closing :: rest) g
    have hle := le_mostOpen opened rest
    simp only [Term.tokens, List.cons_append, List.append_assoc, List.nil_append, mostOpen,
      Nat.add_sub_cancel] at hg ⊢
    rw [hg, Term.depth]
    omega

theorem Group.mostOpen_tokens (opened : Nat) (rest : List Token) : ∀ g : Group,
    mostOpen opened (g.tokens ++ rest) = max (opened + g.depth) (mostOpen opened rest)
  | .lone t => Term.mostOpen_tokens opened rest t
  | .joined join ts => Terms.mostOpen_tokens opened join rest ts

theorem Terms.mostOpen_tokens (opened : Nat) (join : Join) (rest : List Token) : ∀ ts : Terms,
    mostOpen opened (ts.tokens join ++ rest) = max (opened + ts.depth) (mostOpen opened rest)
  | .pair first second => by
    have hsecond := Term.mostOpen_tokens opened rest second
    have hfirst := Term.mostOpen_tokens opened (.join join :: (second.tokens ++ rest)) first
    simp only [Terms.tokens, List.append_assoc, List.cons_append, mostOpen] at hfirst ⊢
    rw [hfirst, hsecond, Terms.depth]
    omega
  | .snoc ts t => by
    have ht := Term.mostOpen_tokens opened rest t
    have hts := Terms.mostOpen_tokens opened join (.join join :: (t.tokens ++ rest)) ts
    simp only [Terms.tokens, List.append_assoc, List.cons_append, mostOpen] at hts ⊢
    rw [hts, ht, Terms.depth]
    omega

end

/-- As many parentheses are open at once in a group as stand inside each other in it. -/
theorem Group.mostOpen_eq_depth (g : Group) : mostOpen 0 g.tokens = g.depth := by
  have h := Group.mostOpen_tokens 0 [] g
  rw [List.append_nil] at h
  simpa [mostOpen] using h

/-! ### Telling derivations apart -/

/-- A quoted text is a string or a date, with its own spelling. -/
theorem ofText_cases (s : String) : Literal.ofText s = .string s ∨ Literal.ofText s = .date s := by
  unfold Literal.ofText
  split
  · exact .inr rfl
  · exact .inl rfl

theorem Operand.eq_of_literal_eq {o o' : Operand} (h : o.literal = o'.literal) : o = o' := by
  cases o with
  | string s =>
    cases o' with
    | string s' =>
      rcases ofText_cases s with hs | hs <;> rcases ofText_cases s' with hs' | hs' <;>
        simp_all [Operand.literal]
    | number n => rcases ofText_cases s with hs | hs <;> simp [Operand.literal, hs] at h
    | boolean b => rcases ofText_cases s with hs | hs <;> simp [Operand.literal, hs] at h
  | number n =>
    cases o' with
    | string s => rcases ofText_cases s with hs | hs <;> simp [Operand.literal, hs] at h
    | number n' => simpa [Operand.literal] using h
    | boolean b => simp [Operand.literal] at h
  | boolean b =>
    cases o' with
    | string s => rcases ofText_cases s with hs | hs <;> simp [Operand.literal, hs] at h
    | number n => simp [Operand.literal] at h
    | boolean b' => simpa [Operand.literal] using h

theorem Phrase.eq_of_toCondition_eq {p p' : Phrase} (h : p.toCondition = p'.toCondition) :
    p = p' := by
  cases p with
  | bare property _ op _ =>
    cases p' with
    | bare property' _ op' _ =>
      obtain ⟨rfl, rfl⟩ : property = property' ∧ op = op' := by simpa [toCondition] using h
      rfl
    | valued => simp [toCondition] at h
  | valued property _ op _ operand =>
    cases p' with
    | bare => simp [toCondition] at h
    | valued property' _ op' _ operand' =>
      obtain ⟨rfl, rfl, hliteral⟩ :
          property = property' ∧ op = op' ∧ operand.literal = operand'.literal := by
        simpa [toCondition] using h
      rw [Operand.eq_of_literal_eq hliteral]

theorem Terms.two_le_length_exprs : ∀ ts : Terms, 2 ≤ ts.exprs.length
  | .pair _ _ => by simp [Terms.exprs]
  | .snoc ts _ => by
    have hts := two_le_length_exprs ts
    simp only [Terms.exprs, List.length_append, List.length_singleton]
    omega

theorem Terms.exprs_ne_singleton (ts : Terms) (e : Expr) : ts.exprs ≠ [e] := by
  intro h
  have hlength := ts.two_le_length_exprs
  simp [h] at hlength

mutual

/-- A term is determined by its expression. -/
theorem Term.eq_of_expr_eq : ∀ {t t' : Term}, t.expr = t'.expr → t = t'
  | .condition p, .condition p', h => by
    have hcondition : p.toCondition = p'.toCondition := by simpa [Term.expr] using h
    rw [Phrase.eq_of_toCondition_eq hcondition]
  | .parenthesised g, .parenthesised g', h => by
    obtain ⟨hjoin, hexprs⟩ : g.join?.getD .and = g'.join?.getD .and ∧ g.exprs = g'.exprs := by
      simpa [Term.expr] using h
    rw [Group.eq_of_exprs_eq hjoin hexprs]
  | .condition _, .parenthesised _, h => by simp [Term.expr] at h
  | .parenthesised _, .condition _, h => by simp [Term.expr] at h

/-- A group is determined by its join and the expressions of its terms, where no join word counts
as `and`. -/
theorem Group.eq_of_exprs_eq : ∀ {g g' : Group}, g.join?.getD .and = g'.join?.getD .and →
    g.exprs = g'.exprs → g = g'
  | .lone t, .lone t', _, h => by
    have hexpr : t.expr = t'.expr := by simpa [Group.exprs] using h
    rw [Term.eq_of_expr_eq hexpr]
  | .joined join ts, .joined join' ts', hjoin, h => by
    have hjoins : join = join' := by simpa [Group.join?] using hjoin
    rw [hjoins, Terms.eq_of_exprs_eq h]
  | .lone t, .joined _ ts, _, h => absurd h.symm (ts.exprs_ne_singleton t.expr)
  | .joined _ ts, .lone t, _, h => absurd h (ts.exprs_ne_singleton t.expr)

/-- Joined terms are determined by their expressions. -/
theorem Terms.eq_of_exprs_eq : ∀ {ts ts' : Terms}, ts.exprs = ts'.exprs → ts = ts'
  | .pair a b, .pair a' b', h => by
    obtain ⟨ha, hb⟩ : a.expr = a'.expr ∧ b.expr = b'.expr := by simpa [Terms.exprs] using h
    rw [Term.eq_of_expr_eq ha, Term.eq_of_expr_eq hb]
  | .snoc ts t, .snoc ts' t', h => by
    obtain ⟨hts, ht⟩ := List.append_inj' h rfl
    rw [Terms.eq_of_exprs_eq hts, Term.eq_of_expr_eq (List.singleton_inj.1 ht)]
  -- a third term leaves two terms at least in front of the last one
  | .pair a b, .snoc ts t, h => by
    have happend : [a.expr] ++ [b.expr] = ts.exprs ++ [t.expr] := h
    obtain ⟨hts, -⟩ := List.append_inj' happend rfl
    exact absurd hts.symm (ts.exprs_ne_singleton a.expr)
  | .snoc ts t, .pair a b, h => by
    have happend : ts.exprs ++ [t.expr] = [a.expr] ++ [b.expr] := h
    obtain ⟨hts, -⟩ := List.append_inj' happend rfl
    exact absurd hts (ts.exprs_ne_singleton a.expr)

end

end RecordFilter.Grammar
