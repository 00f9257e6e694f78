import Mathlib.Data.List.Forall2
import RecordFilter.Compiler

/-!
# What a compilation gives

When a compilation ends with a query, and with which one. A condition gives its primitive query
or the negation of that; a group gives the queries of its children under its join, unless it is
empty or too many groups are around it; and a list of expressions gives a list of queries, one
for each (`runAll_eq_ok_iff`). Nothing here depends on the backend.
-/

namespace RecordFilter

namespace Run

theorem outcome_andThen_eq_ok_iff {α β : Type} {r : Run α} {f : α → Run β} {b : β} :
    (r.andThen f).outcome = .ok b ↔ ∃ a, r.outcome = .ok a ∧ (f a).outcome = .ok b := by
  cases h : r.outcome with
  | error e => simp [andThen, h]
  | ok a => simp [andThen, h]

theorem outcome_map_eq_ok_iff {α β : Type} {r : Run α} {f : α → β} {b : β} :
    (r.map f).outcome = .ok b ↔ ∃ a, r.outcome = .ok a ∧ f a = b := by
  cases h : r.outcome with
  | error e => simp [map, h, Except.map]
  | ok a => simp [map, h, Except.map]

end Run

namespace Compiler

variable {Q : Type} {k : Compiler Q} {fields : FieldSet}

/-- A condition has a primitive query if it names a property, the table has a primitive for its
operator and its kind of operand, and that primitive fits the presence of the operand. -/
theorem leafOf_eq_ok_iff {c : Condition} {l : Leaf} :
    k.leafOf fields c = .ok l ↔ c.property ≠ "" ∧
      ∃ p, k.backend.dispatch c.operator.positive c.kind = some p ∧
        p.leaf? c.property (k.termField fields c) c.value = some l := by
  unfold leafOf
  by_cases hproperty : c.property = ""
  · simp [hproperty]
  · cases hdispatch : k.backend.dispatch c.operator.positive c.kind with
    | none => simp [hproperty]
    | some p =>
      cases hleaf : p.leaf? c.property (k.termField fields c) c.value with
      | none => simp [hproperty, hleaf]
      | some l' => simp [hproperty, hleaf]

/-- The query of a condition: its primitive query, or the negation of that. -/
def signed (k : Compiler Q) (op : Operator) (l : Leaf) : Q :=
  if op.isNegating then k.backend.not (k.backend.leaf l) else k.backend.leaf l

theorem runCondition_eq_ok_iff {c : Condition} {q : Q} :
    (k.runCondition fields c).outcome = .ok q ↔
      ∃ l, k.leafOf fields c = .ok l ∧ k.signed c.operator l = q := by
  unfold runCondition
  cases h : k.leafOf fields c with
  | error fault => simp [Run.fail]
  | ok l => simp [Run.make, signed]

theorem runNode_group_eq_ok_iff {depth : Nat} {join : Join} {es : List Expr} {q : Q} :
    (k.runNode fields depth (.group join es)).outcome = .ok q ↔
      depth ≤ nestingLimit ∧ es ≠ [] ∧
        ∃ qs, (k.runAll fields (depth + 1) es).outcome = .ok qs ∧ k.joined join qs = q := by
  rw [runNode]
  by_cases hdepth : nestingLimit < depth
  · simp [hdepth, Nat.not_le.2 hdepth, Run.fail]
  · by_cases hempty : es = []
    · simp [hdepth, hempty, Run.fail]
    · simp [hdepth, hempty, Nat.not_lt.1 hdepth, Run.outcome_map_eq_ok_iff]

/-- Expressions compile one by one. -/
theorem runAll_eq_ok_iff {depth : Nat} {es : List Expr} {qs : List Q} :
    (k.runAll fields depth es).outcome = .ok qs ↔
      List.Forall₂ (fun e q => (k.runNode fields depth e).outcome = .ok q) es qs := by
  induction es generalizing qs with
  | nil => simp [runAll, Run.done, eq_comm]
  | cons e es ih =>
    rw [runAll, Run.outcome_andThen_eq_ok_iff, List.forall₂_cons_left_iff]
    constructor
    · rintro ⟨q, hq, hqs⟩
      obtain ⟨qs', hqs', rfl⟩ := Run.outcome_map_eq_ok_iff.1 hqs
      exact ⟨q, qs', hq, ih.1 hqs', rfl⟩
    · rintro ⟨q, qs', hq, hqs', rfl⟩
      exact ⟨q, hq, Run.outcome_map_eq_ok_iff.2 ⟨qs', ih.2 hqs', rfl⟩⟩

/-- The children of a group that has a query have queries. -/
theorem runAll_ne_nil {depth : Nat} {es : List Expr} {qs : List Q} (hne : es ≠ [])
    (h : (k.runAll fields depth es).outcome = .ok qs) : qs ≠ [] := by
  rintro rfl
  exact hne (List.forall₂_nil_right_iff.1 (runAll_eq_ok_iff.1 h))

theorem compileExpr_condition_eq_ok_iff {c : Condition} {q : Q} :
    k.compileExpr fields (.condition c) = .ok q ↔ ∃ l, k.leafOf fields c = .ok l ∧
      (if c.operator.isNegating then k.signed c.operator l
        else k.backend.allOf [k.signed c.operator l]) = q := by
  rw [compileExpr, runExpr, Run.outcome_map_eq_ok_iff]
  constructor
  · rintro ⟨q', hq', rfl⟩
    obtain ⟨l, hl, rfl⟩ := runCondition_eq_ok_iff.1 hq'
    exact ⟨l, hl, rfl⟩
  · rintro ⟨l, hl, rfl⟩
    exact ⟨_, runCondition_eq_ok_iff.2 ⟨l, hl, rfl⟩, rfl⟩

end Compiler

end RecordFilter
