import RecordFilter.Proofs.Compiler.Canonical
import RecordFilter.Proofs.Compiler.TextOutcome
import RecordFilter.Proofs.Expr.RoundTrip
import RecordFilter.Proofs.Where.Denotes

/-!
# Two ways from a group to a query

A group has an expression of its own and a text that denotes one. With raw text inside, the
expression is read from the text and nothing can differ. Without, the group is written as its
expression is, so what comes back from the text is the canonical form of the expression
(`Where.parse_cases`). The two differ exactly if some group of one clause was built with `or`: its
text has no join word. Their queries differ in the same cases (`Where.paths_agree_iff`).
-/

namespace RecordFilter

namespace Where

variable {w : Where} {e e' : Expr}

/-- No group of one clause is joined by `or`, unless raw text makes the text decide. -/
def KeepsJoins (w : Where) : Prop :=
  w.containsRaw = true ∨ ∀ g ∈ w.toClause.groups, g.2.length = 1 → g.1 ≠ some .or

theorem expr_eq_ok_iff_of_containsRaw (hraw : w.containsRaw = true) :
    w.expr = .ok e ↔ Expr.parse w.text = .ok e := by
  have hraws : Clause.containsRawAny w.clauses = true := by
    simpa [containsRaw, toClause, Clause.containsRaw] using hraw
  rw [expr, toClause, Clause.expr, if_pos hraws, mapError_eq_ok_iff, text, toClause]

theorem canonical_eq_self_iff (h : w.toClause.Denotes e) :
    e.canonical = e ↔ ∀ g ∈ w.toClause.groups, g.2.length = 1 → g.1 ≠ some .or := by
  have hshape := h.forall_groups_iff fun join length => length = 1 → join = .and
  rw [Expr.canonical_eq_self_iff, hshape]
  refine forall₂_congr fun g _ => imp_congr_right fun _ => ?_
  rcases g with ⟨_ | _ | _, _⟩ <;> simp

/-- What comes back from the text of a group without raw text is the canonical form of its
expression. -/
theorem eq_canonical_of_parse (hw : w.Reachable Literal.IsAuthored)
    (h : w.toClause.Denotes e) (hparse : Expr.parse w.text = .ok e') : e' = e.canonical := by
  have hwritable : ∀ c ∈ e.conditions, c.IsWritable := h.isWritable fun d hd v hv =>
    ((hw.drafts d hd).allowed v hv).isWritable
  rw [text, h.text_eq] at hparse
  exact ((Expr.parse_text_eq_ok_iff hwritable).1 hparse).2.2

/-- Compiling a group compiles the expression that its text denotes. -/
theorem compile_ofWhere {Q : Type} (k : Compiler Q) (fields : FieldSet)
    (hparse : Expr.parse w.text = .ok e) :
    k.compile fields (Source.ofWhere w) = k.compileExpr fields e := by
  rw [Compiler.compile_eq_compileText k fields (s := .ofWhere w) rfl]
  exact Compiler.compileText_of_parse k hparse

/-- What the text of a group denotes: its expression, if that is read from the text, and the
canonical form of its expression otherwise. -/
theorem parse_cases (hw : w.Reachable Literal.IsAuthored) (he : w.expr = .ok e)
    (he' : Expr.parse w.text = .ok e') :
    w.containsRaw = true ∧ e' = e ∨
      w.containsRaw = false ∧ w.toClause.Denotes e ∧ e' = e.canonical := by
  cases hraw : w.containsRaw with
  | true =>
    have hparse := (expr_eq_ok_iff_of_containsRaw hraw).1 he
    exact .inl ⟨rfl, Except.ok.inj (he'.symm.trans hparse)⟩
  | false =>
    have hdenotes := Clause.denotes_of_expr w.toClause hraw he
    exact .inr ⟨rfl, hdenotes, eq_canonical_of_parse hw hdenotes he'⟩

/-- The expression of a group and that of its text are the same exactly if joins are kept. -/
theorem expr_eq_parse_iff (hw : w.Reachable Literal.IsAuthored) (he : w.expr = .ok e)
    (he' : Expr.parse w.text = .ok e') : e = e' ↔ w.KeepsJoins := by
  rcases parse_cases hw he he' with ⟨hraw, rfl⟩ | ⟨hraw, hdenotes, rfl⟩
  · exact iff_of_true rfl (.inl hraw)
  · rw [eq_comm, canonical_eq_self_iff hdenotes]
    simp [KeepsJoins, hraw]

/-- Where both have queries, these are the same exactly if joins are kept. -/
theorem query_eq_query_iff (hw : w.Reachable Literal.IsAuthored) (he : w.expr = .ok e)
    (he' : Expr.parse w.text = .ok e') {suffix : String} {fields : FieldSet} {q q' : Query}
    (hq : (Compiler.elastic suffix).compileExpr fields e = .ok q)
    (hq' : (Compiler.elastic suffix).compileExpr fields e' = .ok q') :
    q = q' ↔ w.KeepsJoins := by
  rw [← expr_eq_parse_iff hw he he']
  constructor
  · rintro rfl
    rcases parse_cases hw he he' with ⟨-, rfl⟩ | ⟨-, -, rfl⟩
    · rfl
    · -- no other expression shares the query of its canonical form
      exact (Compiler.canonical_eq_of_compileExpr hq hq').symm
  · rintro rfl
    exact Except.ok.inj (hq.symm.trans hq')

/-- **When the two ways to a query agree**: the expression of a group is that of its text exactly
if no group of one clause is joined by `or`, or raw text is inside. The queries are the same
then, and only then. -/
theorem paths_agree_iff (hw : w.Reachable Literal.IsAuthored) (he : w.expr = .ok e)
    (he' : Expr.parse w.text = .ok e') :
    (e = e' ↔ w.KeepsJoins) ∧
    (w.KeepsJoins → ∀ {Q : Type} (k : Compiler Q) (fields : FieldSet),
      k.compile fields (Source.ofWhere w) = k.compileExpr fields e) ∧
    ∀ (suffix : String) (fields : FieldSet) (q q' : Query),
      (Compiler.elastic suffix).compile fields (Source.ofWhere w) = .ok q →
      (Compiler.elastic suffix).compileExpr fields e = .ok q' → (q = q' ↔ w.KeepsJoins) := by
  refine ⟨expr_eq_parse_iff hw he he', ?_, ?_⟩
  · intro hkeeps Q k fields
    rw [compile_ofWhere k fields he', (expr_eq_parse_iff hw he he').2 hkeeps]
  · intro suffix fields q q' hq hq'
    rw [compile_ofWhere _ fields he'] at hq
    rw [eq_comm]
    exact query_eq_query_iff hw he he' hq' hq

/-- One condition added with `or`: the group is joined by `or`, and its text by nothing. -/
theorem paths_agree_iff_lone_or : ∃ (w : Where) (e e' : Expr),
    w.Reachable Literal.IsAuthored ∧ w.text = "(\"a\" == 1)" ∧ w.expr = .ok e ∧
    Expr.parse w.text = .ok e' ∧ e ≠ e' ∧
    (Compiler.elastic "keyword").compile .empty (Source.ofWhere w) ≠
      (Compiler.elastic "keyword").compileExpr .empty e := by
  let v : Literal := .number (.integer 1 (by decide))
  let w : Where := ⟨some .or, [.draft ⟨some "a", some .equal, some v⟩]⟩
  let e : Expr := .group .or [.condition ⟨"a", .equal, some v⟩]
  let e' : Expr := .group .and [.condition ⟨"a", .equal, some v⟩]
  have hd : (Draft.mk (some "a") (some .equal) (some v)).Reachable Literal.IsAuthored :=
    .step (.step .empty (s := .newProperty "a") (by simp [Draft.Step.value?]) rfl)
      (s := .relate .equal rfl v) (by simpa [Draft.Step.value?] using .integer _) rfl
  have hw : w.Reachable Literal.IsAuthored := .add .empty (.draft hd) rfl
  have htext : w.text = "(\"a\" == 1)" := by decide +kernel
  have he : w.expr = .ok e := rfl
  have he' : Expr.parse w.text = .ok e' := by
    rw [htext]
    rfl
  have hor : ¬ w.KeepsJoins := by
    simp [KeepsJoins, w, containsRaw, toClause, Clause.containsRaw, Clause.containsRawAny,
      Clause.groups]
  obtain ⟨hexprs, -, hqueries⟩ := paths_agree_iff hw he he'
  have hq : (Compiler.elastic "keyword").compile .empty (Source.ofWhere w) =
      .ok (.allOf [.leaf (.term "a" v)]) := (compile_ofWhere _ _ he').trans rfl
  have hq' : (Compiler.elastic "keyword").compileExpr .empty e =
      .ok (.anyOf [.leaf (.term "a" v)]) := rfl
  refine ⟨w, e, e', hw, htext, he, he', mt hexprs.1 hor, ?_⟩
  rw [hq, hq']
  exact fun hsame => hor ((hqueries _ _ _ _ hq hq').1 (Except.ok.inj hsame))

end Where

end RecordFilter
