import RecordFilter.Proofs.Compiler.Outcome
import RecordFilter.Proofs.Expr.Shape

/-!
# Canonical forms compile to other queries

A group with one child asks the same of a record under either join, but the query tells the joins
apart: the child is a clause that must hold, or one that should. So an expression and its
canonical form have one query only if they are one expression (`canonical_eq_of_compileExpr`).
-/

namespace RecordFilter

namespace Compiler

variable {suffix : String} {fields : FieldSet}

/-- Queries of groups with clauses tell the joins and the clauses apart. -/
theorem joined_elastic_inj {join join' : Join} {qs qs' : List Query} (hne : qs ≠ [])
    (h : (Compiler.elastic suffix).joined join qs = (Compiler.elastic suffix).joined join' qs') :
    join = join' ∧ qs = qs' := by
  cases join <;> cases join' <;>
    simp_all [Compiler.elastic, joined, Backend.elastic, Query.allOf, Query.anyOf]

mutual

theorem canonical_eq_of_runNode : ∀ (e : Expr) {depth : Nat} {q : Query},
    ((Compiler.elastic suffix).runNode fields depth e).outcome = .ok q →
    ((Compiler.elastic suffix).runNode fields depth e.canonical).outcome = .ok q →
    e.canonical = e
  | .condition c, _, _, _, _ => by rw [Expr.canonical]
  | .group join es, depth, q, h, h' => by
    rw [Expr.canonical] at h'
    obtain ⟨-, hne, qs, hqs, rfl⟩ := runNode_group_eq_ok_iff.1 h
    obtain ⟨-, -, qs', hqs', hquery⟩ := runNode_group_eq_ok_iff.1 h'
    -- the query shows the join of the group, so the canonical form has the same one
    obtain ⟨hjoin, rfl⟩ := joined_elastic_inj (runAll_ne_nil hne hqs) hquery.symm
    have hes :=
      canonicalAll_eq_of_runAll es (runAll_eq_ok_iff.1 hqs) (runAll_eq_ok_iff.1 hqs')
    rw [Expr.canonical, ← hjoin, hes]

theorem canonicalAll_eq_of_runAll : ∀ (es : List Expr) {depth : Nat} {qs : List Query},
    List.Forall₂
      (fun e q => ((Compiler.elastic suffix).runNode fields depth e).outcome = .ok q) es qs →
    List.Forall₂ (fun e q => ((Compiler.elastic suffix).runNode fields depth e).outcome = .ok q)
      (Expr.canonicalAll es) qs →
    Expr.canonicalAll es = es
  | [], _, _, _, _ => rfl
  | e :: es, depth, qs, h, h' => by
    rw [Expr.canonicalAll] at h' ⊢
    obtain ⟨q, qs', hq, hqs, rfl⟩ := List.forall₂_cons_left_iff.1 h
    obtain ⟨hq', hqs'⟩ := List.forall₂_cons.1 h'
    rw [canonical_eq_of_runNode e hq hq', canonicalAll_eq_of_runAll es hqs hqs']

end

/-- **An expression shares its query with its canonical form only if it is canonical.** -/
theorem canonical_eq_of_compileExpr {e : Expr} {q : Query}
    (h : (Compiler.elastic suffix).compileExpr fields e = .ok q)
    (h' : (Compiler.elastic suffix).compileExpr fields e.canonical = .ok q) : e.canonical = e := by
  cases e with
  | condition c => rw [Expr.canonical]
  | group join es =>
    refine canonical_eq_of_runNode _ h ?_
    rw [Expr.canonical] at h' ⊢
    exact h'

end Compiler

end RecordFilter
