import RecordFilter.Proofs.Compiler.Outcome

/-!
# Why a compilation fails

A compilation passes through the nodes of an expression in preorder and stops at the first one that
has a fault. `Expr.nodes` lists the nodes, each with the number of groups around it, and
`Expr.fault?` is what is wrong at a node itself, whatever its members are. `Run.StopsAt` says of a
compilation where it ends, and is kept where compilations are put together, so
`Compiler.stopsAt_runExpr` follows the recursion of the compiler.

Of the backend only the table counts, and neither the fields nor the suffix have a part in it
(`Compiler.outcome_compileExpr`).
-/

namespace RecordFilter

/-! ### Faults of nodes -/

/-- The primitive needs an operand and there is one, or it takes none and there is none. -/
def Primitive.fits : Primitive → Option Literal → Bool
  | .term, value | .range _, value | .contains, value => value.isSome
  | .present, value => value.isNone

/-- The table has a primitive for the operator of the condition, without its negation, and its kind
of operand, and that primitive fits the presence of the operand. -/
def Condition.isServed (dispatch : Operator → OperandKind → Option Primitive) (c : Condition) :
    Bool :=
  (dispatch c.operator.positive c.kind).any (·.fits c.value)

namespace Expr

mutual

/-- The nodes of an expression in preorder, each with the number of groups around it, when a number
of groups is around the whole. -/
def nodes (depth : Nat) : Expr → List (Nat × Expr)
  | condition c => [(depth, condition c)]
  | group join children => (depth, group join children) :: nodesOfAll (depth + 1) children

/-- The nodes of some expressions, one after another. -/
def nodesOfAll (depth : Nat) : List Expr → List (Nat × Expr)
  | [] => []
  | e :: es => e.nodes depth ++ nodesOfAll depth es

end

/-- What is wrong at a node itself, when the primitives are chosen from a table. -/
def fault? (dispatch : Operator → OperandKind → Option Primitive) :
    Nat × Expr → Option CompileFault
  | (_, condition c) =>
    if c.property = "" then some .emptyProperty
    else if c.isServed dispatch then none
    else some (.unsupported c.operator c.kind c.property)
  | (depth, group join children) =>
    if nestingLimit < depth then some .tooDeep
    else if children.isEmpty then some (.emptyGroup join)
    else none

end Expr

variable {dispatch : Operator → OperandKind → Option Primitive}

theorem Condition.isServed_iff {c : Condition} : c.isServed dispatch = true ↔
    ∃ p, dispatch c.operator.positive c.kind = some p ∧ p.fits c.value = true := by
  rw [isServed, Option.any_eq_true]

theorem Expr.fault?_condition_eq_none_iff {depth : Nat} {c : Condition} :
    fault? dispatch (depth, .condition c) = none ↔ c.property ≠ "" ∧
      ∃ p, dispatch c.operator.positive c.kind = some p ∧ p.fits c.value = true := by
  rw [← Condition.isServed_iff, fault?]
  by_cases hproperty : c.property = ""
  · simp [hproperty]
  · simp [hproperty]

theorem Expr.fault?_group_eq_none_iff {depth : Nat} {join : Join} {es : List Expr} :
    fault? dispatch (depth, .group join es) = none ↔ depth ≤ nestingLimit ∧ es ≠ [] := by
  rw [fault?]
  by_cases hdepth : nestingLimit < depth
  · simp [hdepth, Nat.not_le.2 hdepth]
  · simp [hdepth, Nat.not_lt.1 hdepth]

/-! ### Where a compilation ends -/

namespace Run

variable {α β : Type} {fault fault' : Option CompileFault} {r : Run α}

/-- The compilation ends at the fault, or with a value if there is none. -/
def StopsAt (fault : Option CompileFault) (r : Run α) : Prop :=
  match fault with
  | none => ∃ a, r.outcome = .ok a
  | some f => r.outcome = .error (.uncompilable f)

theorem StopsAt.map (h : r.StopsAt fault) (f : α → β) : (r.map f).StopsAt fault := by
  cases fault with
  | none =>
    obtain ⟨a, ha⟩ := h
    exact ⟨f a, outcome_map_eq_ok_iff.2 ⟨a, ha, rfl⟩⟩
  | some fault =>
    have hr : r.outcome = .error (.uncompilable fault) := h
    simp [StopsAt, Run.map, hr, Except.map]

/-- A compilation that goes on behind another one ends at the first of their faults. -/
theorem StopsAt.andThen (h : r.StopsAt fault) {f : α → Run β} (hf : ∀ a, (f a).StopsAt fault') :
    (r.andThen f).StopsAt (fault.or fault') := by
  cases fault with
  | none =>
    obtain ⟨a, ha⟩ := h
    have hgoes : (r.andThen f).outcome = (f a).outcome := by simp [Run.andThen, ha]
    have hrest := hf a
    unfold StopsAt at hrest ⊢
    rwa [hgoes]
  | some fault =>
    have hr : r.outcome = .error (.uncompilable fault) := h
    simp [StopsAt, Run.andThen, hr]

theorem StopsAt.exists_eq_ok_iff (h : r.StopsAt fault) :
    (∃ a, r.outcome = .ok a) ↔ fault = none := by
  cases fault with
  | none => exact iff_of_true h rfl
  | some fault =>
    have hr : r.outcome = .error (.uncompilable fault) := h
    simp [hr]

theorem StopsAt.eq_error_iff (h : r.StopsAt fault) {error : Error} :
    r.outcome = .error error ↔ ∃ f, fault = some f ∧ error = .uncompilable f := by
  cases fault with
  | none =>
    obtain ⟨a, ha⟩ := h
    simp [ha]
  | some fault =>
    have hr : r.outcome = .error (.uncompilable fault) := h
    simp [hr, eq_comm]

end Run

/-! ### Compilations -/

/-- A primitive makes a query exactly if it fits the presence of the operand. -/
theorem Primitive.isSome_leaf? (p : Primitive) (property termField : String)
    (value : Option Literal) : (p.leaf? property termField value).isSome = p.fits value := by
  cases p <;> cases value <;> rfl

namespace Compiler

variable {Q : Type} (k : Compiler Q) (fields : FieldSet)

/-- A condition has no primitive query exactly if it has a fault, and for that reason. -/
theorem leafOf_eq_error_iff {depth : Nat} {c : Condition} {fault : CompileFault} :
    k.leafOf fields c = .error fault ↔
      Expr.fault? k.backend.dispatch (depth, .condition c) = some fault := by
  rw [leafOf, Expr.fault?, Condition.isServed]
  by_cases hproperty : c.property = ""
  · simp [hproperty]
  · cases hdispatch : k.backend.dispatch c.operator.positive c.kind with
    | none => simp [hproperty]
    | some p =>
      have hfits := p.isSome_leaf? c.property (k.termField fields c) c.value
      cases hleaf : p.leaf? c.property (k.termField fields c) c.value with
      | none => simp [hproperty, hleaf, ← hfits]
      | some l => simp [hproperty, hleaf, ← hfits]

theorem stopsAt_runCondition (depth : Nat) (c : Condition) :
    (k.runCondition fields c).StopsAt (Expr.fault? k.backend.dispatch (depth, .condition c)) := by
  cases hleaf : k.leafOf fields c with
  | error fault =>
    rw [(leafOf_eq_error_iff k fields).1 hleaf, runCondition, hleaf]
    rfl
  | ok l =>
    have hnone : Expr.fault? k.backend.dispatch (depth, .condition c) = none := by
      rw [Option.eq_none_iff_forall_ne_some]
      intro fault hfault
      simp [(leafOf_eq_error_iff k fields).2 hfault] at hleaf
    rw [hnone, runCondition, hleaf]
    exact ⟨_, rfl⟩

mutual

/-- Inside other groups, a compilation stops at the first node with a fault. -/
theorem stopsAt_runNode : ∀ (e : Expr) (depth : Nat),
    (k.runNode fields depth e).StopsAt
      ((e.nodes depth).findSome? (Expr.fault? k.backend.dispatch))
  | .condition c, depth => by
    have hcondition := k.stopsAt_runCondition fields depth c
    rw [runNode, Expr.nodes, List.findSome?_singleton]
    exact hcondition
  | .group join es, depth => by
    have hes := (stopsAt_runAll es (depth + 1)).map (k.joined join)
    rw [runNode, Expr.nodes, List.findSome?_cons, Expr.fault?]
    -- the checks of the group itself come before its members
    by_cases hdepth : nestingLimit < depth
    · rw [if_pos hdepth, if_pos hdepth]
      rfl
    · rw [if_neg hdepth, if_neg hdepth]
      by_cases hempty : es.isEmpty = true
      · rw [if_pos hempty, if_pos hempty]
        rfl
      · rw [if_neg hempty, if_neg hempty]
        exact hes

theorem stopsAt_runAll : ∀ (es : List Expr) (depth : Nat),
    (k.runAll fields depth es).StopsAt
      ((Expr.nodesOfAll depth es).findSome? (Expr.fault? k.backend.dispatch))
  | [], _ => ⟨[], rfl⟩
  | e :: es, depth => by
    have he := stopsAt_runNode e depth
    have hes := stopsAt_runAll es depth
    rw [runAll, Expr.nodesOfAll, List.findSome?_append]
    exact he.andThen fun q => hes.map _

end

/-- **Where a compilation ends**: at the first node with a fault, in preorder. -/
theorem stopsAt_runExpr (e : Expr) :
    (k.runExpr fields e).StopsAt ((e.nodes 0).findSome? (Expr.fault? k.backend.dispatch)) := by
  have hnode := k.stopsAt_runNode fields e 0
  cases e with
  | condition c => exact hnode.map _
  | group join es => exact hnode

/-- **When a compilation fails, and why**: an expression has a query exactly if its groups have
members and no more groups around them than the limit allows, and its conditions name a property and
are served by the table with a primitive that fits. Otherwise the fault is that of the first node,
in preorder, that has one. -/
theorem outcome_compileExpr (e : Expr) :
    ((∃ q, k.compileExpr fields e = .ok q) ↔
      (∀ depth join es, (depth, .group join es) ∈ e.nodes 0 → depth ≤ nestingLimit ∧ es ≠ []) ∧
      ∀ depth c, (depth, .condition c) ∈ e.nodes 0 → c.property ≠ "" ∧
        ∃ p, k.backend.dispatch c.operator.positive c.kind = some p ∧ p.fits c.value = true) ∧
    ∀ error, k.compileExpr fields e = .error error ↔ ∃ fault,
      (e.nodes 0).findSome? (Expr.fault? k.backend.dispatch) = some fault ∧
        error = .uncompilable fault := by
  have hstops := k.stopsAt_runExpr fields e
  refine ⟨?_, fun error => hstops.eq_error_iff⟩
  rw [compileExpr, hstops.exists_eq_ok_iff, List.findSome?_eq_none_iff]
  constructor
  · intro hnone
    exact ⟨fun depth join es hmem => Expr.fault?_group_eq_none_iff.1 (hnone _ hmem),
      fun depth c hmem => Expr.fault?_condition_eq_none_iff.1 (hnone _ hmem)⟩
  · rintro ⟨hgroups, hconditions⟩ ⟨depth, e'⟩ hmem
    cases e' with
    | condition c => exact Expr.fault?_condition_eq_none_iff.2 (hconditions depth c hmem)
    | group join es => exact Expr.fault?_group_eq_none_iff.2 (hgroups depth join es hmem)

end Compiler

end RecordFilter
