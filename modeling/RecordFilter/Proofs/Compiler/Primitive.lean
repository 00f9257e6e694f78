import RecordFilter.Proofs.Compiler.Outcome

/-!
# What conditions ask

A condition asks one thing of a record: the query that the default table has for its operator,
without the negation, and its kind of operand (`Condition.primitive?`). It asks this of its
property. Only comparisons with strings ask for the exact values of the property
(`Condition.askedField`), which are in a subfield unless the property is in the set of exact fields
(`FieldSet.exactField`). None of this mentions a compiler. That conditions compile to these queries
is `Condition.primitive?_eq_some`.
-/

namespace RecordFilter

/-! ### The primitive query of a condition -/

/-- The condition compares a property with a string, for equality or inequality. -/
def Condition.IsStringEquality (c : Condition) : Prop :=
  (c.operator = .equal ∨ c.operator = .notEqual) ∧ ∃ s, c.value = some (.string s)

/-- The field that is asked for the exact values of a property. -/
def FieldSet.exactField (fields : FieldSet) (suffix property : String) : String :=
  if fields.contains property then property else property ++ "." ++ suffix

/-- The field of which a condition asks whether it has exactly a value. Only comparisons with
strings may be asked of a subfield. -/
def Condition.askedField (suffix : String) (fields : FieldSet) (c : Condition) : String :=
  match c.operator, c.value with
  | .equal, some (.string _) | .notEqual, some (.string _) => fields.exactField suffix c.property
  | _, _ => c.property

/-- The primitive query of a condition: the one that the default table has for its operator, without
its negation, and its kind of operand. -/
def Condition.primitive? (suffix : String) (fields : FieldSet) (c : Condition) : Option Leaf :=
  match defaultDispatch c.operator.positive c.kind, c.value with
  | some .term, some v => some (.term (c.askedField suffix fields) v)
  | some (.range bound), some v => some (.range c.property bound v)
  | some .contains, some v => some (.contains c.property v)
  | some .present, none => some (.present c.property)
  | _, _ => none

/-! ### The table -/

theorem Condition.kind_eq_absent_iff {c : Condition} : c.kind = .absent ↔ c.value = none := by
  cases hvalue : c.value with
  | none => simp [kind, hvalue]
  | some v => cases v <;> simp [kind, hvalue, Literal.kind]

theorem Condition.kind_eq_string_iff {c : Condition} :
    c.kind = .string ↔ ∃ s, c.value = some (.string s) := by
  cases hvalue : c.value with
  | none => simp [kind, hvalue]
  | some v => cases v <;> simp [kind, hvalue, Literal.kind]

/-- The only primitive without an operand is the one for operators that take none. -/
theorem defaultDispatch_eq_present_iff {op : Operator} {kind : OperandKind} {p : Primitive}
    (h : defaultDispatch op kind = some p) : p = .present ↔ kind = .absent := by
  unfold defaultDispatch at h
  split at h <;> simp at h <;> subst h <;> simp

/-- The table has a term query for the comparisons with strings. -/
theorem dispatch_of_isStringEquality {c : Condition} (h : c.IsStringEquality) :
    defaultDispatch c.operator.positive c.kind = some .term := by
  obtain ⟨hop, hstring⟩ := h
  rw [Condition.kind_eq_string_iff.2 hstring]
  rcases hop with hop | hop <;> rw [hop] <;> rfl

/-! ### The field that is asked -/

namespace Condition

variable {suffix : String} {fields : FieldSet} {c : Condition}

theorem askedField_of_isStringEquality (h : c.IsStringEquality) :
    c.askedField suffix fields = fields.exactField suffix c.property := by
  obtain ⟨hop | hop, s, hvalue⟩ := h <;> rw [askedField, hop, hvalue]

/-- Without a string to compare with, the set and the suffix do not matter. -/
theorem askedField_of_not_isStringEquality (h : ¬ c.IsStringEquality) :
    c.askedField suffix fields = c.property := by
  unfold askedField
  split
  · rename_i s hop hvalue
    exact absurd ⟨.inl hop, s, hvalue⟩ h
  · rename_i s hop hvalue
    exact absurd ⟨.inr hop, s, hvalue⟩ h
  · rfl

/-- Queries other than term queries ask the property itself. -/
theorem askedField_of_dispatch {p : Primitive}
    (hdispatch : defaultDispatch c.operator.positive c.kind = some p) (hterm : p ≠ .term) :
    c.askedField suffix fields = c.property := by
  refine askedField_of_not_isStringEquality fun h => hterm ?_
  exact Option.some.inj (hdispatch.symm.trans (dispatch_of_isStringEquality h))

/-- The compiler asks the same field: its test is on the operator without its negation, and on the
kind of the operand. -/
theorem termField_eq (suffix : String) (fields : FieldSet) (c : Condition) :
    (Compiler.elastic suffix).termField fields c = c.askedField suffix fields := by
  have hstring : c.operator.positive = .equal ∧ c.kind = .string ↔ c.IsStringEquality := by
    refine and_congr ?_ kind_eq_string_iff
    cases c.operator <;> simp [Operator.positive, Operator.negated?]
  by_cases h : c.IsStringEquality
  · obtain ⟨hpositive, hkind⟩ := hstring.2 h
    rw [askedField_of_isStringEquality h, Compiler.termField, FieldSet.exactField]
    cases fields.contains c.property <;> simp [hpositive, hkind, Compiler.elastic]
  · rw [askedField_of_not_isStringEquality h]
    exact if_neg fun hsubfield => h (hstring.1 ⟨hsubfield.1, hsubfield.2.1⟩)

/-- A condition compiles to its primitive query. -/
theorem primitive?_eq_some {l : Leaf}
    (h : (Compiler.elastic suffix).leafOf fields c = .ok l) :
    c.primitive? suffix fields = some l := by
  obtain ⟨-, p, hdispatch, hleaf⟩ := Compiler.leafOf_eq_ok_iff.1 h
  have htable : defaultDispatch c.operator.positive c.kind = some p := hdispatch
  rw [termField_eq] at hleaf
  rw [primitive?, htable]
  cases p <;> cases hvalue : c.value <;> simp_all [Primitive.leaf?]

end Condition

/-- The operand of a primitive query is that of its condition. -/
theorem Compiler.value?_of_leafOf {suffix : String} {fields : FieldSet} {c : Condition} {l : Leaf}
    (h : (Compiler.elastic suffix).leafOf fields c = .ok l) : l.value? = c.value := by
  obtain ⟨-, p, -, hleaf⟩ := leafOf_eq_ok_iff.1 h
  cases hvalue : c.value <;> cases p <;> simp [hvalue, Primitive.leaf?] at hleaf <;>
    rw [← hleaf] <;> rfl

end RecordFilter
