import RecordFilter.Proofs.Compiler.Canonical
import RecordFilter.Proofs.Compiler.Fault
import RecordFilter.Proofs.Compiler.Primitive

/-!
# What the classification of fields reaches

The set of exact fields and the suffix have a part in the queries of comparisons of a property with
a string, for equality or inequality, and in nothing else. Two compilations of one expression that
differ in them fail together, and where they give queries, these are the same exactly if every such
comparison asks the same field (`Compiler.eq_iff_of_compileExpr`). For two sets that is so if they
agree on the properties that are compared, and for two suffixes if the set has all of these
(`Compiler.scope_compileExpr`).
-/

namespace RecordFilter

namespace FieldSet

variable {F G : FieldSet} {suffix suffix' property : String}

/-- A subfield is not the property itself. -/
theorem subfield_ne (property suffix : String) : property ++ "." ++ suffix ≠ property := by
  intro h
  have hlength := congrArg String.length h
  simp only [String.length_append] at hlength
  have hpoint : ".".length = 1 := rfl
  omega

/-- The field shows whether the set has the property. -/
theorem exactField_eq_iff_of_sets :
    F.exactField suffix property = G.exactField suffix property ↔
      (F.contains property = true ↔ G.contains property = true) := by
  have hne := subfield_ne property suffix
  unfold exactField
  cases F.contains property <;> cases G.contains property <;> simp [hne, hne.symm]

/-- The field shows the suffix unless the set has the property. -/
theorem exactField_eq_iff_of_suffixes :
    F.exactField suffix property = F.exactField suffix' property ↔
      suffix = suffix' ∨ F.contains property = true := by
  unfold exactField
  cases F.contains property <;> simp

end FieldSet

/-- Two compilations ask for the value of the property in the same field, if the condition compares
it with a string. -/
def Condition.AsksAlike (suffix suffix' : String) (F G : FieldSet) (c : Condition) : Prop :=
  c.IsStringEquality → F.exactField suffix c.property = G.exactField suffix' c.property

namespace Compiler

variable {suffix suffix' : String} {F G : FieldSet}

/-! ### One condition -/

theorem leaf_eq_iff {c : Condition} {l l' : Leaf}
    (h : (Compiler.elastic suffix).leafOf F c = .ok l)
    (h' : (Compiler.elastic suffix').leafOf G c = .ok l') :
    l = l' ↔ c.AsksAlike suffix suffix' F G := by
  obtain ⟨-, p, hdispatch, hleaf⟩ := leafOf_eq_ok_iff.1 h
  obtain ⟨-, p', hdispatch', hleaf'⟩ := leafOf_eq_ok_iff.1 h'
  have htable : defaultDispatch c.operator.positive c.kind = some p := hdispatch
  obtain rfl : p = p' := Option.some.inj (hdispatch.symm.trans hdispatch')
  rw [Condition.termField_eq] at hleaf hleaf'
  by_cases hstring : c.IsStringEquality
  · obtain rfl : p = .term :=
      Option.some.inj (htable.symm.trans (dispatch_of_isStringEquality hstring))
    obtain ⟨-, s, hvalue⟩ := id hstring
    rw [Condition.askedField_of_isStringEquality hstring, hvalue] at hleaf hleaf'
    obtain rfl := Option.some.inj hleaf
    obtain rfl := Option.some.inj hleaf'
    simp [Condition.AsksAlike, hstring]
  · rw [Condition.askedField_of_not_isStringEquality hstring] at hleaf hleaf'
    have hsame : l = l' := Option.some.inj (hleaf.symm.trans hleaf')
    exact iff_of_true hsame fun hstring' => absurd hstring' hstring

theorem signed_eq_iff {op : Operator} {l l' : Leaf} :
    (Compiler.elastic suffix).signed op l = (Compiler.elastic suffix').signed op l' ↔ l = l' := by
  cases hneg : op.isNegating <;> simp [signed, hneg, Compiler.elastic, Backend.elastic, Query.not]

/-! ### Expressions -/

mutual

/-- Inside other groups, a difference at one condition shows in the whole query. -/
theorem eq_iff_of_runNode : ∀ (e : Expr) {depth : Nat} {q q' : Query},
    ((Compiler.elastic suffix).runNode F depth e).outcome = .ok q →
    ((Compiler.elastic suffix').runNode G depth e).outcome = .ok q' →
    (q = q' ↔ ∀ c ∈ e.conditions, c.AsksAlike suffix suffix' F G)
  | .condition c, _, _, _, h, h' => by
    obtain ⟨l, hl, rfl⟩ := runCondition_eq_ok_iff.1 h
    obtain ⟨l', hl', rfl⟩ := runCondition_eq_ok_iff.1 h'
    rw [signed_eq_iff, leaf_eq_iff hl hl', Expr.conditions, List.forall_mem_singleton]
  | .group join es, _, _, _, h, h' => by
    obtain ⟨-, hne, qs, hqs, rfl⟩ := runNode_group_eq_ok_iff.1 h
    obtain ⟨-, -, qs', hqs', rfl⟩ := runNode_group_eq_ok_iff.1 h'
    have hes := eq_iff_of_runAll es (runAll_eq_ok_iff.1 hqs) (runAll_eq_ok_iff.1 hqs')
    rw [Expr.conditions, ← hes]
    constructor
    · exact fun hquery => (joined_elastic_inj (runAll_ne_nil hne hqs) hquery).2
    · rintro rfl
      rfl

theorem eq_iff_of_runAll : ∀ (es : List Expr) {depth : Nat} {qs qs' : List Query},
    List.Forall₂
      (fun e q => ((Compiler.elastic suffix).runNode F depth e).outcome = .ok q) es qs →
    List.Forall₂
      (fun e q => ((Compiler.elastic suffix').runNode G depth e).outcome = .ok q) es qs' →
    (qs = qs' ↔ ∀ c ∈ Expr.conditionsOfAll es, c.AsksAlike suffix suffix' F G)
  | [], _, qs, qs', h, h' => by
    obtain rfl := List.forall₂_nil_left_iff.1 h
    obtain rfl := List.forall₂_nil_left_iff.1 h'
    simp [Expr.conditionsOfAll]
  | e :: es, _, qs, qs', h, h' => by
    obtain ⟨q, qs, hq, hqs, rfl⟩ := List.forall₂_cons_left_iff.1 h
    obtain ⟨q', qs', hq', hqs', rfl⟩ := List.forall₂_cons_left_iff.1 h'
    rw [List.cons.injEq, eq_iff_of_runNode e hq hq', eq_iff_of_runAll es hqs hqs',
      Expr.conditionsOfAll, List.forall_mem_append]

end

/-- **Queries differ where fields do**: two compilations of one expression give the same query
exactly if every comparison with a string asks the same field in both. -/
theorem eq_iff_of_compileExpr {e : Expr} {q q' : Query}
    (h : (Compiler.elastic suffix).compileExpr F e = .ok q)
    (h' : (Compiler.elastic suffix').compileExpr G e = .ok q') :
    q = q' ↔ ∀ c ∈ e.conditions, c.AsksAlike suffix suffix' F G := by
  cases e with
  | condition c =>
    obtain ⟨l, hl, rfl⟩ := compileExpr_condition_eq_ok_iff.1 h
    obtain ⟨l', hl', rfl⟩ := compileExpr_condition_eq_ok_iff.1 h'
    rw [Expr.conditions, List.forall_mem_singleton, ← leaf_eq_iff hl hl',
      ← @signed_eq_iff suffix suffix' c.operator]
    split
    · exact Iff.rfl
    · simp [Compiler.elastic, Backend.elastic, Query.allOf]
  | group join es => exact eq_iff_of_runNode _ h h'

/-- Neither the set nor the suffix has a part in a failure. -/
theorem compileExpr_eq_error_iff (suffix suffix' : String) (F G : FieldSet) (e : Expr)
    (error : Error) :
    (Compiler.elastic suffix).compileExpr F e = .error error ↔
      (Compiler.elastic suffix').compileExpr G e = .error error := by
  have hstops := (Compiler.elastic suffix).stopsAt_runExpr F e
  have hstops' := (Compiler.elastic suffix').stopsAt_runExpr G e
  rw [compileExpr, compileExpr, hstops.eq_error_iff, hstops'.eq_error_iff]
  exact Iff.rfl

/-- Where one of two compilations gives a query, the results are the same exactly if every
comparison with a string asks the same field in both. -/
theorem compileExpr_eq_iff_of_ok {e : Expr} {q : Query}
    (h : (Compiler.elastic suffix).compileExpr F e = .ok q) :
    (Compiler.elastic suffix).compileExpr F e = (Compiler.elastic suffix').compileExpr G e ↔
      ∀ c ∈ e.conditions, c.AsksAlike suffix suffix' F G := by
  cases h' : (Compiler.elastic suffix').compileExpr G e with
  | error error =>
    rw [(compileExpr_eq_error_iff suffix suffix' F G e error).2 h'] at h
    simp at h
  | ok q' =>
    rw [h, Except.ok.injEq]
    exact eq_iff_of_compileExpr h h'

/-- **The scope of field classification.** Whether an expression has a query, and why not, depends
neither on the set of exact fields nor on the suffix. If it has one, two sets give the same query
exactly if they agree on each property that is compared with a string for equality or inequality,
and two suffixes exactly if they are the same or the set has all these properties. -/
theorem scope_compileExpr (suffix suffix' : String) (F G : FieldSet) (e : Expr) :
    (∀ error, (Compiler.elastic suffix).compileExpr F e = .error error ↔
      (Compiler.elastic suffix).compileExpr G e = .error error) ∧
    ((∃ q, (Compiler.elastic suffix).compileExpr F e = .ok q) →
      ((Compiler.elastic suffix).compileExpr F e = (Compiler.elastic suffix).compileExpr G e ↔
        ∀ c ∈ e.conditions, c.IsStringEquality →
          (F.contains c.property = true ↔ G.contains c.property = true))) ∧
    (∀ error, (Compiler.elastic suffix).compileExpr F e = .error error ↔
      (Compiler.elastic suffix').compileExpr F e = .error error) ∧
    ((∃ q, (Compiler.elastic suffix).compileExpr F e = .ok q) →
      ((Compiler.elastic suffix).compileExpr F e = (Compiler.elastic suffix').compileExpr F e ↔
        suffix = suffix' ∨
          ∀ c ∈ e.conditions, c.IsStringEquality → F.contains c.property = true)) := by
  refine ⟨compileExpr_eq_error_iff suffix suffix F G e, ?_,
    compileExpr_eq_error_iff suffix suffix' F F e, ?_⟩
  · rintro ⟨q, hq⟩
    rw [compileExpr_eq_iff_of_ok hq]
    simp only [Condition.AsksAlike, FieldSet.exactField_eq_iff_of_sets]
  · rintro ⟨q, hq⟩
    rw [compileExpr_eq_iff_of_ok hq]
    simp only [Condition.AsksAlike, FieldSet.exactField_eq_iff_of_suffixes]
    by_cases hsuffix : suffix = suffix'
    · simp [hsuffix]
    · simp [hsuffix]

/-- A negated comparison inside two groups: the set changes the query if it has `a`, and not if it
has only `b`, which is compared with a number and searched for a text. -/
theorem scope_compileExpr_nested : ∃ (e : Expr) (q : Query),
    (Compiler.elastic "raw").compileExpr .empty e = .ok q ∧
    (Compiler.elastic "raw").compileExpr .empty e ≠
      (Compiler.elastic "raw").compileExpr (.ofList ["a"]) e ∧
    (Compiler.elastic "raw").compileExpr .empty e =
      (Compiler.elastic "raw").compileExpr (.ofList ["b"]) e := by
  let n : Literal := .number (.integer 1 (by decide))
  let c : Condition := ⟨"a", .notEqual, some (.string "x")⟩
  let e : Expr := .group .or [.condition ⟨"b", .equal, some n⟩,
    .group .and [.condition c, .condition ⟨"b", .contains, some (.string "y")⟩]]
  have hc : c.IsStringEquality := ⟨.inr rfl, "x", rfl⟩
  have hconditions : ∀ c' ∈ e.conditions, c'.IsStringEquality → c' = c := by
    rintro c' hc' ⟨hop, s, hvalue⟩
    simp only [e, Expr.conditions, Expr.conditionsOfAll, List.mem_append, List.mem_singleton,
      List.not_mem_nil, or_false] at hc'
    rcases hc' with rfl | rfl | rfl
    · simp [n] at hvalue
    · rfl
    · simp at hop
  have hmem : c ∈ e.conditions := by simp [e, c, Expr.conditions, Expr.conditionsOfAll]
  refine ⟨e, _, rfl, ?_, ?_⟩
  · obtain ⟨-, hsets, -⟩ := scope_compileExpr "raw" "raw" .empty (.ofList ["a"]) e
    intro hsame
    have hagree := (hsets ⟨_, rfl⟩).1 hsame c hmem hc
    exact absurd hagree (by decide)
  · obtain ⟨-, hsets, -⟩ := scope_compileExpr "raw" "raw" .empty (.ofList ["b"]) e
    refine (hsets ⟨_, rfl⟩).2 fun c' hc' hstring => ?_
    rw [hconditions c' hc' hstring]
    decide

end Compiler

end RecordFilter
