import RecordFilter.Proofs.Compiler.Outcome

/-!
# The shape of compiled queries

The compiler never mixes lists of clauses: a group becomes a boolean query with one list, a
negation one with another, and no list that is made is empty. `Query.IsRegular` says so of every
boolean query in a tree, and `Compiler.isRegular_of_compileExpr` of every tree that a compilation
gives, whatever expression it is made from.
-/

namespace RecordFilter

namespace Query

mutual

/-- The boolean queries in a tree, each with its lists of clauses: those that must hold, those of
which some should, and those that must not. -/
def nodes : Query → List (List Query × List Query × List Query)
  | leaf _ => []
  | bool must should mustNot =>
    (must, should, mustNot) :: (nodesOfAll must ++ nodesOfAll should ++ nodesOfAll mustNot)

/-- The boolean queries in some trees. -/
def nodesOfAll : List Query → List (List Query × List Query × List Query)
  | [] => []
  | q :: qs => q.nodes ++ nodesOfAll qs

end

/-- Every boolean query in the tree has exactly one list of clauses that is not empty. -/
def IsRegular (q : Query) : Prop :=
  ∀ n ∈ q.nodes, [n.1, n.2.1, n.2.2].countP (! ·.isEmpty) = 1

theorem mem_nodesOfAll {qs : List Query} {n : List Query × List Query × List Query} :
    n ∈ nodesOfAll qs ↔ ∃ q ∈ qs, n ∈ q.nodes := by
  induction qs with
  | nil => simp [nodesOfAll]
  | cons q qs ih => simp [nodesOfAll, ih]

theorem isRegular_leaf (l : Leaf) : (leaf l).IsRegular := by simp [IsRegular, nodes]

/-- A boolean query is regular if one of its lists alone has clauses, and these are regular. -/
theorem isRegular_bool {must should mustNot : List Query}
    (hone : [must, should, mustNot].countP (! ·.isEmpty) = 1)
    (hclauses : ∀ q ∈ must ++ should ++ mustNot, q.IsRegular) :
    (bool must should mustNot).IsRegular := by
  intro n hn
  rw [nodes, List.mem_cons] at hn
  rcases hn with rfl | hn
  · exact hone
  · obtain ⟨q, hq, hmem⟩ : ∃ q ∈ must ++ should ++ mustNot, n ∈ q.nodes := by
      simp only [List.mem_append, mem_nodesOfAll] at hn ⊢
      rcases hn with (⟨q, hq, hmem⟩ | ⟨q, hq, hmem⟩) | ⟨q, hq, hmem⟩
      · exact ⟨q, .inl (.inl hq), hmem⟩
      · exact ⟨q, .inl (.inr hq), hmem⟩
      · exact ⟨q, .inr hq, hmem⟩
    exact hclauses q hq n hmem

theorem isRegular_allOf {qs : List Query} (hne : qs ≠ []) (h : ∀ q ∈ qs, q.IsRegular) :
    (allOf qs).IsRegular :=
  isRegular_bool (by simp [hne]) (by simpa using h)

theorem isRegular_anyOf {qs : List Query} (hne : qs ≠ []) (h : ∀ q ∈ qs, q.IsRegular) :
    (anyOf qs).IsRegular :=
  isRegular_bool (by simp [hne]) (by simpa using h)

theorem isRegular_not {q : Query} (h : q.IsRegular) : q.not.IsRegular :=
  isRegular_bool (by simp) (by simpa using h)

end Query

namespace Compiler

variable {suffix : String} {fields : FieldSet}

theorem isRegular_signed (suffix : String) (op : Operator) (l : Leaf) :
    ((Compiler.elastic suffix).signed op l).IsRegular := by
  unfold signed
  split
  · exact Query.isRegular_not (Query.isRegular_leaf l)
  · exact Query.isRegular_leaf l

theorem isRegular_joined (join : Join) {qs : List Query} (hne : qs ≠ [])
    (h : ∀ q ∈ qs, q.IsRegular) : ((Compiler.elastic suffix).joined join qs).IsRegular := by
  cases join with
  | and => exact Query.isRegular_allOf hne h
  | or => exact Query.isRegular_anyOf hne h

mutual

theorem isRegular_of_runNode : ∀ (e : Expr) {depth : Nat} {q : Query},
    ((Compiler.elastic suffix).runNode fields depth e).outcome = .ok q → q.IsRegular
  | .condition c, _, _, h => by
    obtain ⟨l, -, rfl⟩ := runCondition_eq_ok_iff.1 h
    exact isRegular_signed _ c.operator l
  | .group join es, _, _, h => by
    obtain ⟨-, hne, qs, hqs, rfl⟩ := runNode_group_eq_ok_iff.1 h
    refine isRegular_joined join (runAll_ne_nil hne hqs) ?_
    exact isRegular_of_runAll es (runAll_eq_ok_iff.1 hqs)

theorem isRegular_of_runAll : ∀ (es : List Expr) {depth : Nat} {qs : List Query},
    List.Forall₂
      (fun e q => ((Compiler.elastic suffix).runNode fields depth e).outcome = .ok q) es qs →
    ∀ q ∈ qs, q.IsRegular
  | [], _, qs, h => by
    obtain rfl := List.forall₂_nil_left_iff.1 h
    simp
  | e :: es, _, qs, h => by
    obtain ⟨q, qs', hq, hqs, rfl⟩ := List.forall₂_cons_left_iff.1 h
    intro q' hq'
    rcases List.mem_cons.1 hq' with rfl | hq'
    · exact isRegular_of_runNode e hq
    · exact isRegular_of_runAll es hqs q' hq'

end

/-- **Compiled queries are regular**, and boolean ones. -/
theorem isRegular_of_compileExpr {e : Expr} {q : Query}
    (h : (Compiler.elastic suffix).compileExpr fields e = .ok q) :
    q.isBool = true ∧ q.IsRegular := by
  cases e with
  | condition c =>
    obtain ⟨l, -, rfl⟩ := compileExpr_condition_eq_ok_iff.1 h
    have hsigned := isRegular_signed suffix c.operator l
    -- a negation is a boolean query by itself, and anything else becomes the clause of one
    split
    · rename_i hneg
      exact ⟨by rw [signed, if_pos hneg]; rfl, hsigned⟩
    · exact ⟨rfl, Query.isRegular_allOf (by simp) (by simpa using hsigned)⟩
  | group join es =>
    refine ⟨?_, isRegular_of_runNode _ h⟩
    obtain ⟨-, -, qs, -, rfl⟩ := runNode_group_eq_ok_iff.1 h
    cases join <;> rfl

end Compiler

end RecordFilter
