import RecordFilter.Proofs.Compiler.Fault
import RecordFilter.Proofs.Compiler.Primitive
import RecordFilter.Proofs.Expr.WellFormed

/-!
# Which conditions have a query

The default table has a primitive for some operators and kinds of operands, and then that primitive
fits the presence of the operand (`Condition.fits_of_defaultDispatch`). So the first fault of a
well-formed expression is that of the first condition that the table does not support
(`Expr.firstFault_nodes`), and a compilation ends there (`Compiler.checks_runExpr`).
-/

namespace RecordFilter

/-- The default table has a primitive for the operator, without its negation, and the kind of
operand of the condition. -/
def Condition.isSupported (c : Condition) : Bool :=
  (defaultDispatch c.operator.positive c.kind).isSome

/-- Why a condition that is not supported has no query. -/
def Condition.refusal (c : Condition) : CompileFault :=
  .unsupported c.operator c.kind c.property

/-! ### One condition -/

/-- The primitive that the default table has for a condition fits the presence of its operand. -/
theorem Condition.fits_of_defaultDispatch {c : Condition} {p : Primitive}
    (h : defaultDispatch c.operator.positive c.kind = some p) : p.fits c.value = true := by
  have hpresent := (defaultDispatch_eq_present_iff h).trans kind_eq_absent_iff
  cases hvalue : c.value with
  | none =>
    obtain rfl : p = .present := hpresent.2 hvalue
    rfl
  | some v =>
    cases p with
    | term | range bound | contains => rfl
    | present => exact absurd (hpresent.1 rfl) (by simp [hvalue])

/-- The default table serves the conditions that it has a primitive for. -/
theorem Condition.isServed_defaultDispatch (c : Condition) :
    c.isServed defaultDispatch = c.isSupported := by
  rw [isServed, isSupported]
  cases hdispatch : defaultDispatch c.operator.positive c.kind with
  | none => rfl
  | some p => exact fits_of_defaultDispatch hdispatch

/-! ### Expressions -/

namespace Expr

mutual

/-- With the default table, the first fault inside other groups is that of the first condition that
is not supported, if properties are named, groups have children and the limit of nesting is kept. -/
theorem firstFault_nodes : ∀ (e : Expr) (depth : Nat), (∀ c ∈ e.conditions, c.property ≠ "") →
    (∀ g ∈ e.groups, g.2 ≠ []) → depth + e.height ≤ nestingLimit + 1 →
    (e.nodes depth).findSome? (fault? defaultDispatch) =
      (e.conditions.find? (! ·.isSupported)).map Condition.refusal
  | .condition c, depth, hc, _, _ => by
    have hproperty : c.property ≠ "" := hc c (by simp [conditions])
    rw [nodes, conditions, List.findSome?_singleton, List.find?_singleton, fault?,
      if_neg hproperty, c.isServed_defaultDispatch]
    cases c.isSupported <;> rfl
  | .group join es, depth, hc, hg, hheight => by
    rw [height] at hheight
    have hlimit : ¬ nestingLimit < depth := by omega
    have hne : es ≠ [] := hg (join, es) List.mem_cons_self
    have hes := firstFault_nodesOfAll es (depth + 1) hc
      (fun g hmem => hg g (List.mem_cons_of_mem _ hmem)) (by omega)
    rw [nodes, List.findSome?_cons, fault?, if_neg hlimit, if_neg (by simpa using hne)]
    exact hes

theorem firstFault_nodesOfAll : ∀ (es : List Expr) (depth : Nat),
    (∀ c ∈ conditionsOfAll es, c.property ≠ "") → (∀ g ∈ groupsOfAll es, g.2 ≠ []) →
    depth + heightOfAll es ≤ nestingLimit + 1 →
    (nodesOfAll depth es).findSome? (fault? defaultDispatch) =
      ((conditionsOfAll es).find? (! ·.isSupported)).map Condition.refusal
  | [], _, _, _, _ => rfl
  | e :: es, depth, hc, hg, hheight => by
    rw [heightOfAll] at hheight
    have he := firstFault_nodes e depth
      (fun c hmem => hc c (List.mem_append_left _ hmem))
      (fun g hmem => hg g (List.mem_append_left _ hmem)) (by omega)
    have hes := firstFault_nodesOfAll es depth
      (fun c hmem => hc c (List.mem_append_right _ hmem))
      (fun g hmem => hg g (List.mem_append_right _ hmem)) (by omega)
    rw [nodesOfAll, conditionsOfAll, List.findSome?_append, List.find?_append, he, hes,
      Option.map_or]

end

end Expr

/-- The compilation comes through the conditions: it ends at the first one that is not supported,
or else with a value. -/
def Run.Checks {α : Type} (cs : List Condition) (r : Run α) : Prop :=
  match cs.find? (! ·.isSupported) with
  | none => ∃ a, r.outcome = .ok a
  | some c => r.outcome = .error (.uncompilable c.refusal)

theorem Run.checks_iff_stopsAt {α : Type} {cs : List Condition} {r : Run α} :
    r.Checks cs ↔ r.StopsAt ((cs.find? (! ·.isSupported)).map Condition.refusal) := by
  unfold Checks StopsAt
  cases cs.find? (! ·.isSupported) <;> rfl

namespace Compiler

variable {suffix : String} {fields : FieldSet}

/-- **What can go wrong in a well-formed expression**: a condition is not supported, and the first
such condition is the one that is named. -/
theorem checks_runExpr (suffix : String) (fields : FieldSet) {e : Expr} (h : e.IsWellFormed) :
    ((Compiler.elastic suffix).runExpr fields e).Checks e.conditions := by
  have hproperty : ∀ c ∈ e.conditions, c.property ≠ "" := fun c hc =>
    (h.conditions_wellFormed c hc).property_ne
  have hheight : 0 + e.height ≤ nestingLimit + 1 := by
    rw [Nat.zero_add]
    exact h.height_le
  rw [Run.checks_iff_stopsAt, ← e.firstFault_nodes 0 hproperty h.children_ne_nil hheight]
  exact (Compiler.elastic suffix).stopsAt_runExpr fields e

/-- An expression whose conditions are supported has a query if it is well formed. -/
theorem exists_compileExpr_eq_ok {e : Expr} (h : e.IsWellFormed)
    (hsupported : ∀ c ∈ e.conditions, c.isSupported = true) :
    ∃ q, (Compiler.elastic suffix).compileExpr fields e = .ok q := by
  have hnone : e.conditions.find? (! ·.isSupported) = none := by simpa using hsupported
  have hchecks := checks_runExpr suffix fields h
  simp only [Run.Checks, hnone] at hchecks
  exact hchecks

/-! ### The limit of nesting -/

variable {Q : Type} {k : Compiler Q}

mutual

theorem height_le_of_runNode : ∀ (e : Expr) {depth : Nat} {q : Q}, depth ≤ nestingLimit + 1 →
    (k.runNode fields depth e).outcome = .ok q → depth + e.height ≤ nestingLimit + 1
  | .condition _, _, _, hdepth, _ => hdepth
  | .group join es, depth, q, _, h => by
    obtain ⟨hlimit, -, qs, hqs, -⟩ := runNode_group_eq_ok_iff.1 h
    have hes := height_le_of_runAll es (Nat.succ_le_succ hlimit) (runAll_eq_ok_iff.1 hqs)
    rw [Expr.height]
    omega

theorem height_le_of_runAll : ∀ (es : List Expr) {depth : Nat} {qs : List Q},
    depth ≤ nestingLimit + 1 →
    List.Forall₂ (fun e q => (k.runNode fields depth e).outcome = .ok q) es qs →
    depth + Expr.heightOfAll es ≤ nestingLimit + 1
  | [], _, _, hdepth, _ => hdepth
  | e :: es, depth, _, hdepth, h => by
    obtain ⟨q, qs, hq, hqs, -⟩ := List.forall₂_cons_left_iff.1 h
    have he := height_le_of_runNode e hdepth hq
    have hes := height_le_of_runAll es hdepth hqs
    rw [Expr.heightOfAll]
    omega

end

/-- An expression that has a query keeps the limit of nesting. -/
theorem height_le_of_compileExpr {e : Expr} {q : Q} (h : k.compileExpr fields e = .ok q) :
    e.height ≤ nestingLimit + 1 := by
  cases e with
  | condition c => exact Nat.zero_le _
  | group join es =>
    have hheight := height_le_of_runNode (.group join es) (Nat.zero_le _) h
    omega

end Compiler

end RecordFilter
