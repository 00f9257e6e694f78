import RecordFilter.Expr.Parser

/-!
# What the parser can do

`Step s t s'` lists the ways in which a token takes the parser from one state to another, one
constructor for each; `step_eq_ok_iff` says that `step` succeeds in exactly these ways. `Reads`
is any number of such steps. `run_eq_ok_iff` says that a run succeeds exactly if the tokens can be
read and the state behind them finishes, and `run_eq_error` says where a run fails.
-/

namespace RecordFilter

/-- A value is the same with the errors changed. -/
theorem mapError_eq_ok_iff {α ε ε' : Type} {f : ε → ε'} {r : Except ε α} {a : α} :
    r.mapError f = .ok a ↔ r = .ok a := by
  cases r with
  | error e => exact iff_of_false nofun nofun
  | ok b =>
    exact ⟨fun h => congrArg Except.ok (Except.ok.inj h), fun h =>
      congrArg Except.ok (Except.ok.inj h)⟩

/-- A text that parses has lexemes. -/
theorem Expr.exists_tokenize_of_parse {text : String} {e : Expr} (h : parse text = .ok e) :
    ∃ lexemes, Token.tokenize text = .ok lexemes := by
  unfold parse at h
  split at h
  · simp at h
  · rename_i lexemes hlexemes
    exact ⟨lexemes, hlexemes⟩

namespace Parser

/-- A token takes the parser from one state to another. -/
inductive Step : State → Token → State → Prop where
  /-- A parenthesis opens a group, unless too many are open. -/
  | opening {s : State} : s.expectation = .term → s.enclosing.length < nestingLimit →
      Step s .opening ⟨⟨none, []⟩, s.current :: s.enclosing, .term⟩
  | property {s : State} {property : String} : s.expectation = .term → property ≠ "" →
      Step s (.string property) { s with expectation := .operator property }
  | operator {s : State} {property : String} {op : Operator} :
      s.expectation = .operator property → op.takesValue = true →
      Step s (.operator op) { s with expectation := .value property op }
  /-- An operator that takes no operand ends a condition. -/
  | bare {s : State} {property : String} {op : Operator} :
      s.expectation = .operator property → op.takesValue = false →
      Step s (.operator op) (s.addCondition ⟨property, op, none⟩ (some op))
  | value {s : State} {property : String} {op : Operator} {t : Token} {v : Literal} :
      s.expectation = .value property op → operand? t = some v →
      Step s t (s.addCondition ⟨property, op, some v⟩ none)
  /-- A join word follows a term, the same one throughout the group. -/
  | join {s : State} {bare : Option Operator} {j : Join} : s.expectation = .continuation bare →
      (s.current.join = none ∨ s.current.join = some j) →
      Step s (.join j) ⟨⟨some j, s.current.terms⟩, s.enclosing, .term⟩
  /-- A parenthesis closes the innermost group. -/
  | closing {s : State} {bare : Option Operator} {outer : Frame} {enclosing : List Frame} :
      s.expectation = .continuation bare → s.enclosing = outer :: enclosing →
      Step s .closing ⟨outer.add s.current.close, enclosing, .continuation none⟩

/-- Tokens take the parser from one state to another. -/
inductive Reads : State → List Token → State → Prop where
  | nil (s : State) : Reads s [] s
  | cons {s s' s'' : State} {t : Token} {ts : List Token} :
      Step s t s' → Reads s' ts s'' → Reads s (t :: ts) s''

/-! ### One step -/

theorem step_of_step {s s' : State} {t : Token} (h : Step s t s') : step s t = .ok s' := by
  cases h with
  | opening he hlimit => simp [step, he, stepTerm, Nat.not_le.2 hlimit]
  | property he hne => simp [step, he, stepTerm, hne]
  | operator he htakes => simp [step, he, stepOperator, htakes]
  | bare he htakes => simp [step, he, stepOperator, htakes]
  | value he hoperand => simp [step, he, stepValue, hoperand]
  | @join bare j he hjoin =>
    rcases hjoin with hjoin | hjoin
    · simp [step, he, stepContinuation, operand?, stepJoin, hjoin]
    · have hframe : s.current = ⟨some j, s.current.terms⟩ := by rw [← hjoin]
      simp [step, he, stepContinuation, operand?, stepJoin, hjoin, ← hframe]
  | closing he houter => simp [step, he, stepContinuation, operand?, houter]

theorem step_of_stepTerm {s s' : State} {t : Token} (he : s.expectation = .term)
    (h : stepTerm s t = .ok s') : Step s t s' := by
  unfold stepTerm at h
  split at h
  · split at h
    · simp at h
    · rename_i hlimit
      obtain rfl := Except.ok.inj h
      exact .opening he (Nat.not_le.1 hlimit)
  · split at h
    · simp at h
    · rename_i hne
      obtain rfl := Except.ok.inj h
      exact .property he hne
  · simp at h

theorem step_of_stepOperator {s s' : State} {property : String} {t : Token}
    (he : s.expectation = .operator property) (h : stepOperator s property t = .ok s') :
    Step s t s' := by
  unfold stepOperator at h
  split at h
  · split at h
    · rename_i htakes
      obtain rfl := Except.ok.inj h
      exact .operator he htakes
    · rename_i htakes
      obtain rfl := Except.ok.inj h
      exact .bare he (by simpa using htakes)
  · simp at h

theorem step_of_stepValue {s s' : State} {property : String} {op : Operator} {t : Token}
    (he : s.expectation = .value property op) (h : stepValue s property op t = .ok s') :
    Step s t s' := by
  unfold stepValue at h
  split at h
  · rename_i hoperand
    obtain rfl := Except.ok.inj h
    exact .value he hoperand
  · simp at h

theorem step_of_stepJoin {s s' : State} {bare : Option Operator} {j : Join}
    (he : s.expectation = .continuation bare) (h : stepJoin s j = .ok s') :
    Step s (.join j) s' := by
  unfold stepJoin at h
  split at h
  · rename_i hjoin
    obtain rfl := Except.ok.inj h
    exact .join he (.inl hjoin)
  · rename_i current hjoin
    split at h
    · rename_i hcurrent
      obtain rfl := Except.ok.inj h
      -- the group has the join already, so its frame stays what it is
      have hframe : s.current = ⟨some j, s.current.terms⟩ := by rw [← hcurrent, ← hjoin]
      have hstate := Step.join he (.inr (hjoin.trans (congrArg some hcurrent)))
      rwa [← hframe] at hstate
    · simp at h

theorem step_of_stepContinuation {s s' : State} {bare : Option Operator} {t : Token}
    (he : s.expectation = .continuation bare) (h : stepContinuation s bare t = .ok s') :
    Step s t s' := by
  unfold stepContinuation at h
  split at h
  · simp at h
  · split at h
    · exact step_of_stepJoin he h
    · rename_i houter _
      obtain rfl := Except.ok.inj h
      exact .closing he houter
    · simp at h

/-- **What a step can do**: the parser takes a token in one of the ways of `Step`, or refuses
it. -/
theorem step_eq_ok_iff {s s' : State} {t : Token} : step s t = .ok s' ↔ Step s t s' := by
  refine ⟨fun h => ?_, step_of_step⟩
  unfold step at h
  split at h
  · rename_i he
    exact step_of_stepTerm he h
  · rename_i he
    exact step_of_stepOperator he h
  · rename_i he
    exact step_of_stepValue he h
  · rename_i he
    exact step_of_stepContinuation he h

theorem Step.unique {s s' s'' : State} {t : Token} (h : Step s t s') (h' : Step s t s'') :
    s' = s'' :=
  Except.ok.inj ((step_eq_ok_iff.2 h).symm.trans (step_eq_ok_iff.2 h'))

/-- Where a term must follow, a text is taken as the name of a property, which is not empty. -/
theorem Step.of_string {s s' : State} {property : String}
    (h : Step s (.string property) s') (hexpects : s.expectation = .term) :
    property ≠ "" ∧ s'.expectation = .operator property := by
  cases h with
  | property _ hne => exact ⟨hne, rfl⟩
  | value hvalue _ => simp [hexpects] at hvalue

/-- A term follows an opening parenthesis and a join word. -/
theorem Step.expectation_eq_term {s s' : State} {t : Token} (h : Step s t s')
    (ht : t = .opening ∨ ∃ j, t = .join j) : s'.expectation = .term := by
  rcases ht with rfl | ⟨j, rfl⟩
  · cases h with
    | opening _ _ => rfl
    | value _ hoperand => simp [operand?] at hoperand
  · cases h with
    | join _ _ => rfl
    | value _ hoperand => simp [operand?] at hoperand

/-! ### Many steps -/

theorem Reads.append {s s' s'' : State} {ts ts' : List Token} (h : Reads s ts s')
    (h' : Reads s' ts' s'') : Reads s (ts ++ ts') s'' := by
  induction h with
  | nil => exact h'
  | cons hstep _ ih => exact .cons hstep (ih h')

/-- Reading tokens and then others passes through a state between them. -/
theorem Reads.split {s s'' : State} {ts ts' : List Token} (h : Reads s (ts ++ ts') s'') :
    ∃ s', Reads s ts s' ∧ Reads s' ts' s'' := by
  induction ts generalizing s with
  | nil => exact ⟨s, .nil s, h⟩
  | cons t ts ih =>
    cases h with
    | cons hstep h =>
      obtain ⟨s', h1, h2⟩ := ih h
      exact ⟨s', .cons hstep h1, h2⟩

theorem Reads.unique {s s' s'' : State} {ts : List Token} (h : Reads s ts s')
    (h' : Reads s ts s'') : s' = s'' := by
  induction h with
  | nil => cases h' with | nil => rfl
  | cons hstep _ ih =>
    cases h' with
    | cons hstep' h' => exact ih (hstep.unique hstep' ▸ h')

/-- **What a run can do**: it gives an expression exactly if the tokens can be read and the state
behind them finishes with that expression. -/
theorem run_eq_ok_iff {s : State} {stop : Nat} {lexemes : List Lexeme} {e : Expr} :
    run s stop lexemes = .ok e ↔
      ∃ s', Reads s (lexemes.map Lexeme.token) s' ∧ finish s' = .ok e := by
  induction lexemes generalizing s with
  | nil =>
    rw [run, mapError_eq_ok_iff]
    constructor
    · exact fun h => ⟨s, .nil s, h⟩
    · rintro ⟨s', hreads, h⟩
      cases hreads with | nil => exact h
  | cons l lexemes ih =>
    rw [run, List.map_cons]
    constructor
    · intro h
      split at h
      · simp at h
      · rename_i s' hstep
        obtain ⟨s'', hreads, hfinish⟩ := ih.1 h
        exact ⟨s'', .cons (step_eq_ok_iff.1 hstep) hreads, hfinish⟩
    · rintro ⟨s'', hreads, hfinish⟩
      cases hreads with
      | cons hstep hreads =>
        rw [step_of_step hstep]
        exact ih.2 ⟨s'', hreads, hfinish⟩

/-- **How a run fails**: at a lexeme whose token is refused in the state behind the lexemes before
it, or at the end in a state that does not finish. -/
theorem run_eq_error {s : State} {stop offset : Nat} {fault : Fault} {lexemes : List Lexeme}
    (h : run s stop lexemes = .error (offset, fault)) :
    (∃ before l behind s', lexemes = before ++ l :: behind ∧ offset = l.start ∧
      Reads s (before.map Lexeme.token) s' ∧ step s' l.token = .error fault) ∨
    ∃ s', offset = stop ∧ Reads s (lexemes.map Lexeme.token) s' ∧ finish s' = .error fault := by
  induction lexemes generalizing s with
  | nil =>
    rw [run] at h
    cases hfinish : finish s with
    | ok e =>
      rw [hfinish] at h
      exact nomatch h
    | error fault' =>
      rw [hfinish] at h
      obtain ⟨rfl, rfl⟩ : stop = offset ∧ fault' = fault := Prod.mk.inj (Except.error.inj h)
      exact .inr ⟨s, rfl, .nil s, hfinish⟩
  | cons l lexemes ih =>
    rw [run] at h
    split at h
    · rename_i hstep
      obtain ⟨rfl, rfl⟩ := Prod.mk.inj (Except.error.inj h)
      exact .inl ⟨[], l, lexemes, s, rfl, rfl, .nil s, hstep⟩
    · rename_i s' hstep
      have hread : Step s l.token s' := step_eq_ok_iff.1 hstep
      rcases ih h with ⟨before, l', behind, s'', hsplit, hoffset, hreads, hrefused⟩ |
        ⟨s'', hoffset, hreads, hfinish⟩
      · exact .inl ⟨l :: before, l', behind, s'', by rw [hsplit, List.cons_append], hoffset,
          .cons hread hreads, hrefused⟩
      · exact .inr ⟨s'', hoffset, .cons hread hreads, hfinish⟩

/-- A text with known lexemes parses exactly if their tokens can be read from the start. -/
theorem parse_eq_ok_iff_reads {text : String} {lexemes : List Lexeme}
    (h : Token.tokenize text = .ok lexemes) {e : Expr} :
    Expr.parse text = .ok e ↔
      ∃ s, Reads .start (lexemes.map Lexeme.token) s ∧ finish s = .ok e := by
  have hrun := @run_eq_ok_iff .start text.utf8ByteSize lexemes e
  rw [← hrun, Expr.parse, h]
  simp only
  split <;> simp_all

end Parser

end RecordFilter
