import RecordFilter.Proofs.Compiler.Regular
import RecordFilter.Proofs.Compiler.Support
import RecordFilter.Proofs.Token.Blank
import RecordFilter.Source

/-!
# What compiling a text gives

A text is blank, or malformed, or it denotes an expression. That expression is well formed, so its
compilation can only fail at a condition that the table does not support. `Compiler.outcome_ofText`
puts this together: which of the four outcomes a text has, and what is in it.
-/

namespace RecordFilter

/-- A blank text denotes nothing. -/
theorem Expr.isAllBlank_of_parse {text : String} {e : Expr} (h : parse text = .ok e) :
    Text.isAllBlank text = false := by
  rw [Bool.eq_false_iff]
  intro hblank
  obtain ⟨lexemes, hlexemes⟩ := exists_tokenize_of_parse h
  obtain rfl := Token.eq_nil_of_isAllBlank hlexemes hblank
  obtain ⟨s, hreads, hfinish⟩ := (Parser.parse_eq_ok_iff_reads hlexemes).1 h
  -- nothing was read, and the start is no state that finishes
  cases hreads with
  | nil => simp [Parser.finish, Parser.State.start] at hfinish

namespace Compiler

variable {Q : Type} {suffix : String} {fields : FieldSet} {text : String}

/-- A source is compiled as the text that counts of it. -/
theorem compile_eq_compileText (k : Compiler Q) (fields : FieldSet) {s : Source}
    (h : s.built.or s.written = some text) :
    k.compile fields s = k.compileText fields text := by
  by_cases hblank : Text.isAllBlank text = true <;>
    simp [compile, Source.resolve, h, compileText, runText, hblank, Run.fail]

theorem compileText_of_isAllBlank (k : Compiler Q) (h : Text.isAllBlank text = true) :
    k.compileText fields text = .error .emptyExpression := by
  simp [compileText, runText, h, Run.fail]

theorem compileText_of_parse_error (k : Compiler Q) {e : SyntaxError}
    (hblank : Text.isAllBlank text = false) (h : Expr.parse text = .error e) :
    k.compileText fields text = .error (.malformed e) := by
  simp [compileText, runText, hblank, h, Run.fail]

theorem compileText_of_parse (k : Compiler Q) {e : Expr} (h : Expr.parse text = .ok e) :
    k.compileText fields text = k.compileExpr fields e := by
  simp [compileText, runText, Expr.isAllBlank_of_parse h, h, compileExpr]

/-- The four outcomes that compiling a text can have, each with what is known of the text. -/
inductive TextOutcome (text : String) : Except Error Query → Prop where
  | blank : Text.isAllBlank text = true → (∀ e, Expr.parse text ≠ .ok e) →
      TextOutcome text (.error .emptyExpression)
  | malformed {e : SyntaxError} : Text.isAllBlank text = false → Expr.parse text = .error e →
      TextOutcome text (.error (.malformed e))
  /-- The condition is the first one that is not supported. -/
  | unsupported {e : Expr} {c : Condition} : Text.isAllBlank text = false →
      Expr.parse text = .ok e → e.conditions.find? (! ·.isSupported) = some c →
      TextOutcome text (.error (.uncompilable c.refusal))
  | query {e : Expr} {q : Query} : Text.isAllBlank text = false → Expr.parse text = .ok e →
      e.conditions.find? (! ·.isSupported) = none → TextOutcome text (.ok q)

/-- Compiling a text has one of the four outcomes. -/
theorem textOutcome_compileText (suffix : String) (fields : FieldSet) (text : String) :
    TextOutcome text ((Compiler.elastic suffix).compileText fields text) := by
  cases hblank : Text.isAllBlank text with
  | true =>
    rw [compileText_of_isAllBlank _ hblank]
    exact .blank hblank fun e he => by simp [Expr.isAllBlank_of_parse he] at hblank
  | false =>
    cases hparse : Expr.parse text with
    | error e =>
      rw [compileText_of_parse_error _ hblank hparse]
      exact .malformed hblank hparse
    | ok e =>
      have hchecks := checks_runExpr suffix fields (Expr.isWellFormed_of_parse hparse)
      rw [compileText_of_parse _ hparse, compileExpr]
      unfold Run.Checks at hchecks
      split at hchecks
      · rename_i hnone
        obtain ⟨q, hq⟩ := hchecks
        rw [hq]
        exact .query hblank hparse hnone
      · rename_i c hfirst
        rw [hchecks]
        exact .unsupported hblank hparse hfirst

namespace TextOutcome

variable {r : Except Error Query}

theorem eq_emptyExpression_iff (h : TextOutcome text r) :
    r = .error .emptyExpression ↔ Text.isAllBlank text = true := by
  cases h with
  | blank hblank _ => simp [hblank]
  | malformed hblank _ => simp [hblank]
  | unsupported hblank _ _ => simp [hblank]
  | query hblank _ _ => simp [hblank]

theorem eq_malformed_iff (h : TextOutcome text r) {e : SyntaxError} :
    r = .error (.malformed e) ↔ Text.isAllBlank text = false ∧ Expr.parse text = .error e := by
  cases h with
  | blank hblank _ => simp [hblank]
  | malformed hblank hparse => simp [hblank, hparse]
  | unsupported _ hparse _ => simp [hparse]
  | query _ hparse _ => simp [hparse]

theorem eq_uncompilable_iff (h : TextOutcome text r) {fault : CompileFault} :
    r = .error (.uncompilable fault) ↔
      ∃ e c, Expr.parse text = .ok e ∧ e.conditions.find? (! ·.isSupported) = some c ∧
        fault = .unsupported c.operator c.kind c.property := by
  cases h with
  | blank _ hparse => simp [hparse]
  | malformed _ hparse => simp [hparse]
  | unsupported _ hparse hfirst => simp [hparse, hfirst, Condition.refusal, eq_comm]
  | query _ hparse hnone => simp [hparse, hnone]

theorem exists_eq_ok_iff (h : TextOutcome text r) :
    (∃ q, r = .ok q) ↔
      ∃ e, Expr.parse text = .ok e ∧ ∀ c ∈ e.conditions, c.isSupported = true := by
  cases h with
  | blank _ hparse => simp [hparse]
  | malformed _ hparse => simp [hparse]
  | @unsupported e c _ hparse hfirst =>
    have hmem := List.mem_of_find?_eq_some hfirst
    have hunsupported : c.isSupported = false := by simpa using List.find?_some hfirst
    refine iff_of_false (by simp) ?_
    rintro ⟨e', he', hall⟩
    obtain rfl := Except.ok.inj (hparse.symm.trans he')
    simp [hall c hmem] at hunsupported
  | @query e q _ hparse hnone => exact iff_of_true ⟨q, rfl⟩ ⟨e, hparse, by simpa using hnone⟩

end TextOutcome

/-- The query of a text is the query of the expression that it denotes. -/
theorem exists_parse_of_compileText {k : Compiler Q} {q : Q}
    (h : k.compileText fields text = .ok q) :
    ∃ e, Expr.parse text = .ok e ∧ k.compileExpr fields e = .ok q := by
  cases hblank : Text.isAllBlank text with
  | true => simp [compileText_of_isAllBlank k hblank] at h
  | false =>
    cases hparse : Expr.parse text with
    | error e => simp [compileText_of_parse_error k hblank hparse] at h
    | ok e => exact ⟨e, rfl, (compileText_of_parse k hparse).symm.trans h⟩

/-- **The outcome of compiling a text.** It is an empty expression exactly if the text is blank,
malformed exactly if it is not and does not parse, and uncompilable exactly if it parses and a
condition is not supported, of which the first in the order of the text is named. Otherwise there is
a query, a boolean one in which every boolean query has one list of clauses. Whatever parses is well
formed, so no other fault comes up. -/
theorem outcome_ofText (suffix : String) (fields : FieldSet) (text : String) :
    ((Compiler.elastic suffix).compile fields (Source.ofText text) = .error .emptyExpression ↔
      Text.isAllBlank text = true) ∧
    (∀ e, (Compiler.elastic suffix).compile fields (Source.ofText text) = .error (.malformed e) ↔
      Text.isAllBlank text = false ∧ Expr.parse text = .error e) ∧
    (∀ fault,
      (Compiler.elastic suffix).compile fields (Source.ofText text) =
          .error (.uncompilable fault) ↔
        ∃ e c, Expr.parse text = .ok e ∧ e.conditions.find? (! ·.isSupported) = some c ∧
          fault = .unsupported c.operator c.kind c.property) ∧
    ((∃ q, (Compiler.elastic suffix).compile fields (Source.ofText text) = .ok q) ↔
      ∃ e, Expr.parse text = .ok e ∧ ∀ c ∈ e.conditions, c.isSupported = true) ∧
    (∀ q, (Compiler.elastic suffix).compile fields (Source.ofText text) = .ok q →
      q.isBool = true ∧ q.IsRegular) ∧
    ∀ e, Expr.parse text = .ok e → e.IsWellFormed ∧
      ∀ lexemes, Token.tokenize text = .ok lexemes →
        e.conditions.flatMap Condition.tokens =
          (lexemes.map Lexeme.token).filter Token.isOfCondition := by
  rw [compile_eq_compileText (s := .ofText text) _ fields rfl]
  have houtcome := textOutcome_compileText suffix fields text
  refine ⟨houtcome.eq_emptyExpression_iff, fun _ => houtcome.eq_malformed_iff,
    fun _ => houtcome.eq_uncompilable_iff, houtcome.exists_eq_ok_iff, ?_, ?_⟩
  · intro q hq
    obtain ⟨e, -, he⟩ := exists_parse_of_compileText hq
    exact isRegular_of_compileExpr he
  · intro e he
    exact ⟨Expr.isWellFormed_of_parse he, fun _ hlexemes =>
      Expr.tokens_conditions_of_parse hlexemes he⟩

end Compiler

end RecordFilter
