import RecordFilter.Proofs.Compiler.Primitive

/-!
# Compilation preserves meaning

What filters and queries say about a record, given which queries on single fields it satisfies.
`Expr.Holds` reads `and` as all and `or` as some, and a condition as its primitive query
(`Condition.primitive?`), which three operators turn around. `Query.Holds` reads a boolean query
clause list by clause list. Neither mentions a compiler, and the two agree on an expression and its
query (`Compiler.holds_compileExpr_iff`).

An empty list of clauses is where they could part: no clause that should hold asks for nothing,
whereas a group without children joined by `or` holds nowhere. Groups without children have no
query, so this does not happen.
-/

namespace RecordFilter

/-! ### The meaning of filters -/

/-- What a condition asks of a record, before a negation: that it satisfies the primitive query of
the condition. -/
def Condition.Asks (suffix : String) (fields : FieldSet) (sat : Leaf → Prop) (c : Condition) :
    Prop :=
  ∃ l ∈ c.primitive? suffix fields, sat l

/-- A record meets a condition. Three operators turn around what is asked. -/
def Condition.Holds (suffix : String) (fields : FieldSet) (sat : Leaf → Prop) (c : Condition) :
    Prop :=
  match c.operator with
  | .notEqual | .lacks | .missing => ¬ c.Asks suffix fields sat
  | _ => c.Asks suffix fields sat

mutual

/-- A record meets an expression, given the conditions that it meets. -/
def Expr.Holds (meets : Condition → Prop) : Expr → Prop
  | .condition c => meets c
  | .group .and es => Expr.AllHold meets es
  | .group .or es => Expr.SomeHold meets es

/-- A record meets all of some expressions. -/
def Expr.AllHold (meets : Condition → Prop) : List Expr → Prop
  | [] => True
  | e :: es => e.Holds meets ∧ Expr.AllHold meets es

/-- A record meets one of some expressions. -/
def Expr.SomeHold (meets : Condition → Prop) : List Expr → Prop
  | [] => False
  | e :: es => e.Holds meets ∨ Expr.SomeHold meets es

end

/-! ### The meaning of queries -/

mutual

/-- A record satisfies a query: all clauses that must hold do, one that should hold does if there
are any, and none that must not hold does. -/
def Query.Holds (sat : Leaf → Prop) : Query → Prop
  | .leaf l => sat l
  | .bool must should mustNot =>
    Query.AllHold sat must ∧ (should = [] ∨ Query.SomeHold sat should) ∧
      ¬ Query.SomeHold sat mustNot

/-- A record satisfies all of some queries. -/
def Query.AllHold (sat : Leaf → Prop) : List Query → Prop
  | [] => True
  | q :: qs => q.Holds sat ∧ Query.AllHold sat qs

/-- A record satisfies one of some queries. -/
def Query.SomeHold (sat : Leaf → Prop) : List Query → Prop
  | [] => False
  | q :: qs => q.Holds sat ∨ Query.SomeHold sat qs

end

namespace Query

variable {sat : Leaf → Prop}

@[simp]
theorem holds_leaf {l : Leaf} : (leaf l).Holds sat ↔ sat l := by rw [Holds]

@[simp]
theorem holds_allOf {qs : List Query} : (allOf qs).Holds sat ↔ AllHold sat qs := by
  simp [allOf, Holds, SomeHold]

/-- Only a list without clauses asks for less than one of them. -/
theorem holds_anyOf {qs : List Query} (hne : qs ≠ []) :
    (anyOf qs).Holds sat ↔ SomeHold sat qs := by
  simp [anyOf, Holds, AllHold, SomeHold, hne]

@[simp]
theorem holds_not {q : Query} : q.not.Holds sat ↔ ¬ q.Holds sat := by
  simp [not, Holds, AllHold, SomeHold]

end Query

/-! ### Preservation -/

section Preservation

variable {suffix : String} {fields : FieldSet} {sat : Leaf → Prop}

/-- What a condition asks is what its compilation makes, before it is turned around. -/
theorem Condition.asks_iff {c : Condition} {l : Leaf}
    (h : (Compiler.elastic suffix).leafOf fields c = .ok l) :
    c.Asks suffix fields sat ↔ sat l := by
  simp [Asks, Condition.primitive?_eq_some h]

/-- The operators that turn around what is asked are the negating ones. -/
theorem Condition.holds_iff (c : Condition) :
    c.Holds suffix fields sat ↔ (c.operator.isNegating = true ↔ ¬ c.Asks suffix fields sat) := by
  unfold Holds
  cases c.operator <;> simp [Operator.isNegating, Operator.negated?]

theorem Condition.holds_signed_iff {c : Condition} {l : Leaf}
    (h : (Compiler.elastic suffix).leafOf fields c = .ok l) :
    ((Compiler.elastic suffix).signed c.operator l).Holds sat ↔ c.Holds suffix fields sat := by
  rw [Condition.holds_iff, Condition.asks_iff h]
  by_cases hneg : c.operator.isNegating = true
  · have hquery : (Compiler.elastic suffix).signed c.operator l = (Query.leaf l).not := if_pos hneg
    rw [hquery, Query.holds_not, Query.holds_leaf]
    simp [hneg]
  · have hquery : (Compiler.elastic suffix).signed c.operator l = .leaf l := if_neg hneg
    rw [hquery, Query.holds_leaf]
    simp [hneg]

/-- The query of a group asks its clauses what the join asks. -/
theorem Query.holds_joined {join : Join} {es : List Expr} {qs : List Query}
    {meets : Condition → Prop} (hne : qs ≠ [])
    (hall : AllHold sat qs ↔ Expr.AllHold meets es)
    (hsome : SomeHold sat qs ↔ Expr.SomeHold meets es) :
    ((Compiler.elastic suffix).joined join qs).Holds sat ↔ (Expr.group join es).Holds meets := by
  cases join with
  | and =>
    rw [Expr.Holds, ← hall]
    exact Query.holds_allOf
  | or =>
    rw [Expr.Holds, ← hsome]
    exact Query.holds_anyOf hne

mutual

/-- Inside other groups, a query says what its expression says. -/
theorem Compiler.holds_runNode_iff : ∀ (e : Expr) {depth : Nat} {q : Query},
    ((Compiler.elastic suffix).runNode fields depth e).outcome = .ok q →
    (q.Holds sat ↔ e.Holds (·.Holds suffix fields sat))
  | .condition c, depth, q, h => by
    obtain ⟨l, hl, rfl⟩ := Compiler.runCondition_eq_ok_iff.1 h
    rw [Condition.holds_signed_iff hl, Expr.Holds]
  | .group join es, depth, q, h => by
    obtain ⟨-, hne, qs, hqs, rfl⟩ := Compiler.runNode_group_eq_ok_iff.1 h
    obtain ⟨hall, hsome⟩ := holds_runAll_iff es (Compiler.runAll_eq_ok_iff.1 hqs)
    exact Query.holds_joined (Compiler.runAll_ne_nil hne hqs) hall hsome

theorem Compiler.holds_runAll_iff : ∀ (es : List Expr) {depth : Nat} {qs : List Query},
    List.Forall₂
      (fun e q => ((Compiler.elastic suffix).runNode fields depth e).outcome = .ok q) es qs →
    (Query.AllHold sat qs ↔ Expr.AllHold (·.Holds suffix fields sat) es) ∧
      (Query.SomeHold sat qs ↔ Expr.SomeHold (·.Holds suffix fields sat) es)
  | [], depth, qs, h => by
    obtain rfl := List.forall₂_nil_left_iff.1 h
    simp [Query.AllHold, Query.SomeHold, Expr.AllHold, Expr.SomeHold]
  | e :: es, depth, qs, h => by
    obtain ⟨q, qs', hq, hqs, rfl⟩ := List.forall₂_cons_left_iff.1 h
    have he := holds_runNode_iff e hq
    obtain ⟨hall, hsome⟩ := holds_runAll_iff es hqs
    exact ⟨and_congr he hall, or_congr he hsome⟩

end

/-- **Compilation preserves meaning**: whatever a record satisfies, it satisfies the query of an
expression exactly if it meets the expression. -/
theorem Compiler.holds_compileExpr_iff {e : Expr} {q : Query}
    (h : (Compiler.elastic suffix).compileExpr fields e = .ok q) :
    q.Holds sat ↔ e.Holds (·.Holds suffix fields sat) := by
  cases e with
  | condition c =>
    obtain ⟨l, hl, rfl⟩ := Compiler.compileExpr_condition_eq_ok_iff.1 h
    have hsigned : ((Compiler.elastic suffix).signed c.operator l).Holds sat ↔ _ :=
      Condition.holds_signed_iff hl
    rw [Expr.Holds, ← hsigned]
    split
    · exact Iff.rfl
    · exact Query.holds_allOf.trans (and_iff_left trivial)
  | group join es => exact holds_runNode_iff _ h

/-- A record with nothing but the value `x` in the exact-match subfield of `a`: it meets the second
member of the group, which negates twice, and not the first. -/
theorem Compiler.holds_compileExpr_iff_mixed : ∃ q : Query,
    (Compiler.elastic "raw").compileExpr .empty
      (.group .or [.condition ⟨"a", .notEqual, some (.string "x")⟩,
        .group .and [.condition ⟨"b", .missing, none⟩,
          .condition ⟨"c", .lacks, some (.string "y")⟩]]) = .ok q ∧
    (q.Holds (· = .term "a.raw" (.string "x")) ↔
      (Expr.group .or [.condition ⟨"a", .notEqual, some (.string "x")⟩,
        .group .and [.condition ⟨"b", .missing, none⟩,
          .condition ⟨"c", .lacks, some (.string "y")⟩]]).Holds
        (·.Holds "raw" .empty (· = .term "a.raw" (.string "x")))) :=
  ⟨_, rfl, holds_compileExpr_iff rfl⟩

end Preservation

end RecordFilter
