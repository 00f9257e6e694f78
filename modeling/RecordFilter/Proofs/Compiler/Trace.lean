import Mathlib.Data.List.TakeWhile
import RecordFilter.Proofs.Compiler.Fault
import RecordFilter.Proofs.Compiler.Primitive

/-!
# The primitive queries of a compilation

A compilation keeps the primitive queries in the order in which they are made. It makes one for each
condition that it comes through, before it stops at the first node with a fault
(`Compiler.leaves_runExpr`). With query trees nothing is lost on the way to the result: the
primitive queries that were made are its leaves (`Compiler.leaves_of_runExpr`), and they are those
of the conditions (`Condition.primitive?`).

Each primitive query is reported as an event. Events that are the same come from queries of one
kind, with the same field, bound and text of the value (`Leaf.event_eq_iff`), and what is reported
of a compilation can be told from its conditions alone (`Compiler.events_runExpr_elastic`).
-/

namespace RecordFilter

/-! ### Conditions among nodes -/

namespace Expr

/-- The conditions among some nodes. -/
def conditionsAmong (nodes : List (Nat × Expr)) : List Condition :=
  nodes.filterMap fun
    | (_, condition c) => some c
    | (_, group _ _) => none

mutual

/-- The conditions of an expression are those among its nodes. -/
theorem conditionsAmong_nodes : ∀ (e : Expr) (depth : Nat),
    conditionsAmong (e.nodes depth) = e.conditions
  | .condition c, _ => rfl
  | .group join es, depth => by
    rw [nodes, conditions, ← conditionsAmong_nodesOfAll es (depth + 1)]
    rfl

theorem conditionsAmong_nodesOfAll : ∀ (es : List Expr) (depth : Nat),
    conditionsAmong (nodesOfAll depth es) = conditionsOfAll es
  | [], _ => rfl
  | e :: es, depth => by
    rw [nodesOfAll, conditionsOfAll, ← conditionsAmong_nodes e depth,
      ← conditionsAmong_nodesOfAll es depth]
    exact List.filterMap_append

end

/-- The nodes in front of the first one with a fault. -/
def sound (dispatch : Operator → OperandKind → Option Primitive) (nodes : List (Nat × Expr)) :
    List (Nat × Expr) :=
  nodes.takeWhile fun node => (fault? dispatch node).isNone

section

variable {dispatch : Operator → OperandKind → Option Primitive} {nodes nodes' : List (Nat × Expr)}

theorem sound_append_of_no_fault (h : nodes.findSome? (fault? dispatch) = none) :
    sound dispatch (nodes ++ nodes') = nodes ++ sound dispatch nodes' :=
  List.takeWhile_append_of_pos fun node hnode => by
    rw [List.findSome?_eq_none_iff.1 h node hnode]
    rfl

theorem sound_of_no_fault (h : nodes.findSome? (fault? dispatch) = none) :
    sound dispatch nodes = nodes := by
  have happend : sound dispatch (nodes ++ []) = nodes ++ sound dispatch [] :=
    sound_append_of_no_fault h
  rwa [List.append_nil, sound, sound, List.takeWhile_nil, List.append_nil] at happend

/-- The nodes in front of the first one with a fault have none. -/
theorem fault?_of_mem_sound {node : Nat × Expr} (h : node ∈ sound dispatch nodes) :
    fault? dispatch node = none := by
  rw [sound] at h
  simpa using List.mem_takeWhile_imp h

/-- The nodes around the first one with a fault. -/
theorem exists_of_findSome? {fault : CompileFault}
    (h : nodes.findSome? (fault? dispatch) = some fault) : ∃ node behind,
      nodes = sound dispatch nodes ++ node :: behind ∧ fault? dispatch node = some fault ∧
        ∀ n ∈ sound dispatch nodes, fault? dispatch n = none := by
  obtain ⟨before, node, behind, rfl, hfault, hbefore⟩ := List.findSome?_eq_some_iff.1 h
  have hsound : sound dispatch (before ++ node :: behind) = before := by
    rw [sound_append_of_no_fault (List.findSome?_eq_none_iff.2 hbefore)]
    simp [sound, hfault]
  rw [hsound]
  exact ⟨node, behind, rfl, hfault, hbefore⟩

theorem sound_append_of_fault {fault : CompileFault}
    (h : nodes.findSome? (fault? dispatch) = some fault) :
    sound dispatch (nodes ++ nodes') = sound dispatch nodes := by
  obtain ⟨node, behind, hnodes, hfault, hbefore⟩ := exists_of_findSome? h
  have hall := List.findSome?_eq_none_iff.2 hbefore
  have hsplit : nodes ++ nodes' = sound dispatch nodes ++ node :: (behind ++ nodes') := by
    conv_lhs => rw [hnodes]
    simp
  rw [hsplit, sound_append_of_no_fault hall]
  simp [sound, hfault]

end

end Expr

/-! ### What a compilation makes -/

namespace Compiler

variable {Q : Type} (k : Compiler Q) (fields : FieldSet)

/-- The primitive queries of the conditions among some nodes that have one. -/
def leavesAmong (nodes : List (Nat × Expr)) : List Leaf :=
  (Expr.conditionsAmong nodes).filterMap fun c => (k.leafOf fields c).toOption

theorem leavesAmong_append (nodes nodes' : List (Nat × Expr)) :
    k.leavesAmong fields (nodes ++ nodes') =
      k.leavesAmong fields nodes ++ k.leavesAmong fields nodes' := by
  simp [leavesAmong, Expr.conditionsAmong]

theorem leaves_runCondition (depth : Nat) (c : Condition) :
    (k.runCondition fields c).leaves =
      k.leavesAmong fields (Expr.sound k.backend.dispatch [(depth, .condition c)]) := by
  cases hleaf : k.leafOf fields c with
  | error fault =>
    have hfault : Expr.fault? k.backend.dispatch (depth, .condition c) = some fault :=
      (leafOf_eq_error_iff k fields).1 hleaf
    simp [runCondition, hleaf, Run.fail, Expr.sound, hfault, leavesAmong, Expr.conditionsAmong]
  | ok l =>
    have hnone : Expr.fault? k.backend.dispatch (depth, .condition c) = none :=
      (k.stopsAt_runCondition fields depth c).exists_eq_ok_iff.1 ⟨_, by rw [runCondition, hleaf]; rfl⟩
    simp [runCondition, hleaf, Run.make, Expr.sound, hnone, leavesAmong, Expr.conditionsAmong,
      Except.toOption]

mutual

/-- Inside other groups, a compilation makes the primitive queries of the conditions in front of the
first node with a fault. -/
theorem leaves_runNode : ∀ (e : Expr) (depth : Nat), (k.runNode fields depth e).leaves =
    k.leavesAmong fields (Expr.sound k.backend.dispatch (e.nodes depth))
  | .condition c, depth => by
    rw [runNode, Expr.nodes]
    exact k.leaves_runCondition fields depth c
  | .group join es, depth => by
    have hes := leaves_runAll es (depth + 1)
    rw [runNode, Expr.nodes, Expr.sound, List.takeWhile_cons, Expr.fault?]
    -- a group with a fault of its own stops the compilation before its members
    by_cases hdepth : nestingLimit < depth
    · rw [if_pos hdepth, if_pos hdepth]
      rfl
    · rw [if_neg hdepth, if_neg hdepth]
      by_cases hempty : es.isEmpty = true
      · rw [if_pos hempty, if_pos hempty]
        rfl
      · rw [if_neg hempty, if_neg hempty]
        exact hes

theorem leaves_runAll : ∀ (es : List Expr) (depth : Nat), (k.runAll fields depth es).leaves =
    k.leavesAmong fields (Expr.sound k.backend.dispatch (Expr.nodesOfAll depth es))
  | [], _ => rfl
  | e :: es, depth => by
    have he := leaves_runNode e depth
    have hes := leaves_runAll es depth
    have hstops := k.stopsAt_runNode fields e depth
    rw [runAll, Expr.nodesOfAll, Run.andThen]
    cases hfault : (e.nodes depth).findSome? (Expr.fault? k.backend.dispatch) with
    | some fault =>
      -- the members behind are neither compiled nor sound
      have houtcome := hstops.eq_error_iff.2 ⟨fault, hfault, rfl⟩
      rw [houtcome, Expr.sound_append_of_fault hfault]
      exact he
    | none =>
      obtain ⟨q, hq⟩ := hstops.exists_eq_ok_iff.2 hfault
      rw [hq, Expr.sound_append_of_no_fault hfault, leavesAmong_append, ← hes]
      rw [Expr.sound_of_no_fault hfault] at he
      exact congrArg (· ++ _) he

end

/-- **What a compilation makes**: the primitive queries of the conditions in front of the first node
with a fault, in preorder, or of all of them if there is none. -/
theorem leaves_runExpr (e : Expr) : (k.runExpr fields e).leaves =
    k.leavesAmong fields (Expr.sound k.backend.dispatch (e.nodes 0)) := by
  have hnode := k.leaves_runNode fields e 0
  cases e with
  | condition c => exact hnode
  | group join es => exact hnode

/-- Conditions without a fault have their primitive queries, one each. -/
theorem map_primitive?_conditionsAmong {suffix : String} {nodes : List (Nat × Expr)}
    (h : ∀ node ∈ nodes, Expr.fault? defaultDispatch node = none) :
    (Expr.conditionsAmong nodes).map (·.primitive? suffix fields) =
      ((Compiler.elastic suffix).leavesAmong fields nodes).map some := by
  induction nodes with
  | nil => rfl
  | cons node nodes ih =>
    obtain ⟨hnode, hnodes⟩ := List.forall_mem_cons.1 h
    obtain ⟨depth, e⟩ := node
    cases e with
    | group join es => exact ih hnodes
    | condition c =>
      have hstops := (Compiler.elastic suffix).stopsAt_runCondition fields depth c
      obtain ⟨q, hq⟩ := hstops.exists_eq_ok_iff.2 hnode
      obtain ⟨l, hl, -⟩ := runCondition_eq_ok_iff.1 hq
      have hrest := ih hnodes
      simp only [leavesAmong] at hrest
      simp [Expr.conditionsAmong, leavesAmong, hl, Except.toOption,
        Condition.primitive?_eq_some hl]
      exact hrest

/-! ### Query trees -/

section

variable {suffix : String} {fields : FieldSet}

theorem leaves_signed (op : Operator) (l : Leaf) :
    ((Compiler.elastic suffix).signed op l).leaves = [l] := by
  cases hneg : op.isNegating <;>
    simp [signed, hneg, Compiler.elastic, Backend.elastic, Query.not, Query.leaves,
      Query.leavesOfAll]

theorem leaves_joined (join : Join) (qs : List Query) :
    ((Compiler.elastic suffix).joined join qs).leaves = Query.leavesOfAll qs := by
  cases join <;>
    simp [joined, Compiler.elastic, Backend.elastic, Query.allOf, Query.anyOf, Query.leaves,
      Query.leavesOfAll]

theorem leaves_of_runCondition {c : Condition} {q : Query}
    (h : ((Compiler.elastic suffix).runCondition fields c).outcome = .ok q) :
    ((Compiler.elastic suffix).runCondition fields c).leaves = q.leaves := by
  obtain ⟨l, hl, rfl⟩ := runCondition_eq_ok_iff.1 h
  rw [leaves_signed, runCondition, hl]
  rfl

mutual

/-- Inside other groups, the primitive queries that were made are the leaves of the result. -/
theorem leaves_of_runNode : ∀ (e : Expr) {depth : Nat} {q : Query},
    ((Compiler.elastic suffix).runNode fields depth e).outcome = .ok q →
    ((Compiler.elastic suffix).runNode fields depth e).leaves = q.leaves
  | .condition c, depth, q, h => by
    rw [runNode] at h ⊢
    exact leaves_of_runCondition h
  | .group join es, depth, q, h => by
    obtain ⟨hdepth, hne, qs, hqs, rfl⟩ := runNode_group_eq_ok_iff.1 h
    rw [leaves_joined, ← leaves_of_runAll es hqs, runNode, if_neg (Nat.not_lt.2 hdepth),
      if_neg (by simpa using hne)]
    rfl

theorem leaves_of_runAll : ∀ (es : List Expr) {depth : Nat} {qs : List Query},
    ((Compiler.elastic suffix).runAll fields depth es).outcome = .ok qs →
    ((Compiler.elastic suffix).runAll fields depth es).leaves = Query.leavesOfAll qs
  | [], depth, qs, h => by
    obtain rfl := Except.ok.inj h
    rfl
  | e :: es, depth, qs, h => by
    rw [runAll] at h ⊢
    obtain ⟨q, hq, hrest⟩ := Run.outcome_andThen_eq_ok_iff.1 h
    obtain ⟨qs', hqs, rfl⟩ := Run.outcome_map_eq_ok_iff.1 hrest
    rw [Query.leavesOfAll, ← leaves_of_runNode e hq, ← leaves_of_runAll es hqs, Run.andThen, hq]
    rfl

end

/-- The query of a lone condition has one leaf, the primitive query of the condition. -/
theorem exists_leaf_of_compileExpr {c : Condition} {q : Query}
    (h : (Compiler.elastic suffix).compileExpr fields (.condition c) = .ok q) :
    ∃ l, (Compiler.elastic suffix).leafOf fields c = .ok l ∧ q.leaves = [l] := by
  obtain ⟨l, hl, rfl⟩ := compileExpr_condition_eq_ok_iff.1 h
  refine ⟨l, hl, ?_⟩
  split
  · exact leaves_signed c.operator l
  · -- a clause that must hold has the leaves that it has alone
    have hlone : ((Compiler.elastic suffix).joined .and
        [(Compiler.elastic suffix).signed c.operator l]).leaves = [l] := by
      rw [leaves_joined, Query.leavesOfAll, Query.leavesOfAll, List.append_nil, leaves_signed]
    exact hlone

theorem leaves_of_runExpr {e : Expr} {q : Query}
    (h : ((Compiler.elastic suffix).runExpr fields e).outcome = .ok q) :
    ((Compiler.elastic suffix).runExpr fields e).leaves = q.leaves := by
  cases e with
  | group join es => exact leaves_of_runNode _ h
  | condition c =>
    obtain ⟨l, hl, hleaves⟩ := exists_leaf_of_compileExpr h
    have hmade : ((Compiler.elastic suffix).runCondition fields c).leaves = [l] := by
      rw [runCondition, hl]
      rfl
    exact hmade.trans hleaves.symm

/-- With query trees, what was made are the primitive queries of the conditions in front of the
first node with a fault. -/
theorem map_primitive?_sound (suffix : String) (fields : FieldSet) (e : Expr) :
    (Expr.conditionsAmong (Expr.sound defaultDispatch (e.nodes 0))).map
        (·.primitive? suffix fields) =
      ((Compiler.elastic suffix).runExpr fields e).leaves.map some := by
  rw [leaves_runExpr]
  exact map_primitive?_conditionsAmong fields fun node => Expr.fault?_of_mem_sound

/-- No condition of an expression with a query is behind a fault. -/
theorem conditionsAmong_sound_of_compileExpr {e : Expr} {q : Query}
    (h : (Compiler.elastic suffix).compileExpr fields e = .ok q) :
    Expr.conditionsAmong (Expr.sound defaultDispatch (e.nodes 0)) = e.conditions := by
  have hnone := ((Compiler.elastic suffix).stopsAt_runExpr fields e).exists_eq_ok_iff.1 ⟨q, h⟩
  have hsound : Expr.sound defaultDispatch (e.nodes 0) = e.nodes 0 := Expr.sound_of_no_fault hnone
  rw [hsound, Expr.conditionsAmong_nodes]

/-- **The log of a compilation.** If an expression has a query, then the primitive queries that were
made on the way are the leaves of that query, and these are the primitive queries of its conditions,
all in preorder and none left out. If it has none, then exactly the primitive queries were made of
the conditions in front of the first node with a fault, and the error is that fault. -/
theorem leaves_runExpr_elastic (suffix : String) (fields : FieldSet) (e : Expr) :
    (∀ q, (Compiler.elastic suffix).compileExpr fields e = .ok q →
      ((Compiler.elastic suffix).runExpr fields e).leaves = q.leaves ∧
      e.conditions.map (·.primitive? suffix fields) = q.leaves.map some) ∧
    ∀ error, (Compiler.elastic suffix).compileExpr fields e = .error error →
      ∃ before node behind fault, e.nodes 0 = before ++ node :: behind ∧
        (∀ n ∈ before, Expr.fault? defaultDispatch n = none) ∧
        Expr.fault? defaultDispatch node = some fault ∧ error = .uncompilable fault ∧
        (Expr.conditionsAmong before).map (·.primitive? suffix fields) =
          ((Compiler.elastic suffix).runExpr fields e).leaves.map some := by
  have hmade := map_primitive?_sound suffix fields e
  constructor
  · intro q hq
    have hleaves := leaves_of_runExpr hq
    refine ⟨hleaves, ?_⟩
    rw [conditionsAmong_sound_of_compileExpr hq, hleaves] at hmade
    exact hmade
  · intro error herror
    have hstops := (Compiler.elastic suffix).stopsAt_runExpr fields e
    obtain ⟨fault, hfault, rfl⟩ := hstops.eq_error_iff.1 herror
    obtain ⟨node, behind, hnodes, hnode, hbefore⟩ := Expr.exists_of_findSome? hfault
    exact ⟨_, node, behind, fault, hnodes, hbefore, hnode, rfl, hmade⟩

end

end Compiler

/-! ### Events -/

/-- The name of a kind of query says which kind it is, except for the bound of a range. -/
theorem Primitive.eq_or_ranges_of_name_eq {p p' : Primitive} (h : p.name = p'.name) :
    p = p' ∨ ∃ bound bound', p = .range bound ∧ p' = .range bound' := by
  cases p <;> cases p' <;> simp [name] at h ⊢

theorem Primitive.eq_iff {p p' : Primitive} :
    p = p' ↔ p.name = p'.name ∧ p.bound? = p'.bound? := by
  constructor
  · rintro rfl
    exact ⟨rfl, rfl⟩
  · rintro ⟨hname, hbound⟩
    obtain rfl | ⟨bound, bound', rfl, rfl⟩ := eq_or_ranges_of_name_eq hname
    · rfl
    · rw [Option.some.inj hbound]

theorem Bound.key_inj {b b' : Bound} (h : b.key = b'.key) : b = b' := by
  cases b <;> cases b' <;> first | rfl | simp [key] at h

namespace Leaf

variable {l l' : Leaf}

/-- A query has no parts besides its kind, which holds the bound, its field and its value. -/
theorem eq_iff :
    l = l' ↔ l.primitive = l'.primitive ∧ l.field = l'.field ∧ l.value? = l'.value? := by
  constructor
  · rintro rfl
    exact ⟨rfl, rfl, rfl⟩
  · rintro ⟨hkind, hfield, hvalue⟩
    cases l <;> cases l' <;> simp_all [primitive, field, value?]

/-- **What an event says** of a query: its kind, which holds the bound, its field, and the text of
its value. -/
theorem event_eq_iff : l.event = l'.event ↔ l.primitive = l'.primitive ∧ l.field = l'.field ∧
    l.value?.map Literal.text = l'.value?.map Literal.text := by
  have hkey : Function.Injective (Option.map Bound.key) :=
    Option.map_injective fun _ _ => Bound.key_inj
  rw [Primitive.eq_iff, ← hkey.eq_iff, event, event, Event.mk.injEq]
  constructor
  · rintro ⟨hname, hfield, hbound, hvalue⟩
    exact ⟨⟨hname, hbound⟩, hfield, hvalue⟩
  · rintro ⟨⟨hname, hbound⟩, hfield, hvalue⟩
    exact ⟨hname, hfield, hbound, hvalue⟩

end Leaf

/-- What is reported of a condition: the kind of query that the default table has for it, the field
that it asks, and the text of its operand. -/
def Condition.event? (suffix : String) (fields : FieldSet) (c : Condition) : Option Event :=
  (defaultDispatch c.operator.positive c.kind).map fun p =>
    ⟨p.name, c.askedField suffix fields, p.bound?.map Bound.key, c.value.map Literal.text⟩

/-- What is reported of a condition is the event of its primitive query. -/
theorem Condition.event?_eq (suffix : String) (fields : FieldSet) (c : Condition) :
    c.event? suffix fields = (c.primitive? suffix fields).map Leaf.event := by
  cases hdispatch : defaultDispatch c.operator.positive c.kind with
  | none => simp [event?, primitive?, hdispatch]
  | some p =>
    have hpresent := (defaultDispatch_eq_present_iff hdispatch).trans kind_eq_absent_iff
    have hproperty (hterm : p ≠ .term) : c.askedField suffix fields = c.property :=
      askedField_of_dispatch hdispatch hterm
    rw [event?, primitive?, hdispatch]
    cases hvalue : c.value with
    | none =>
      obtain rfl : p = .present := hpresent.2 hvalue
      rw [hproperty (by simp)]
      rfl
    | some v =>
      cases p with
      | term => rfl
      | range bound | contains =>
        rw [hproperty (by simp)]
        rfl
      | present => exact absurd (hpresent.1 rfl) (by simp [hvalue])

namespace Compiler

/-- **The events of a compilation** are what is reported of the conditions in front of the first
node with a fault, in preorder. If an expression has a query, then these are all its conditions, and
the events are those of the leaves of the query. -/
theorem events_runExpr_elastic (suffix : String) (fields : FieldSet) (e : Expr) :
    (Expr.conditionsAmong (Expr.sound defaultDispatch (e.nodes 0))).map (·.event? suffix fields) =
      ((Compiler.elastic suffix).runExpr fields e).events.map some ∧
    ∀ q, (Compiler.elastic suffix).compileExpr fields e = .ok q →
      Expr.conditionsAmong (Expr.sound defaultDispatch (e.nodes 0)) = e.conditions ∧
        ((Compiler.elastic suffix).runExpr fields e).events = q.leaves.map Leaf.event := by
  constructor
  · let conditions := Expr.conditionsAmong (Expr.sound defaultDispatch (e.nodes 0))
    calc conditions.map (·.event? suffix fields)
        = (conditions.map (·.primitive? suffix fields)).map (Option.map Leaf.event) := by
          simp [Condition.event?_eq]
      _ = (((Compiler.elastic suffix).runExpr fields e).leaves.map some).map
          (Option.map Leaf.event) := by rw [map_primitive?_sound]
      _ = ((Compiler.elastic suffix).runExpr fields e).events.map some := by simp [Run.events]
  · intro q hq
    exact ⟨conditionsAmong_sound_of_compileExpr hq,
      congrArg (List.map Leaf.event) (leaves_of_runExpr hq)⟩

/-- An event of each name, and none behind a node with a fault. -/
example : ((Compiler.elastic "keyword").runExpr .empty
    (.group .and [.condition ⟨"a", .present, none⟩, .group .or [
      .condition ⟨"b", .notEqual, some (.string "x")⟩,
      .condition ⟨"c", .less, some (.number (.integer 1 (by decide)))⟩,
      .condition ⟨"d", .contains, some (.string "y")⟩,
      .condition ⟨"e", .present, some (.boolean true)⟩, .condition ⟨"f", .missing, none⟩]])).events =
    [⟨"exists query", "a", none, none⟩, ⟨"term query", "b.keyword", none, some "\"x\""⟩,
      ⟨"range query", "c", some "lt", some "1"⟩, ⟨"match query", "d", none, some "\"y\""⟩] := by
  decide +kernel

end Compiler

end RecordFilter
