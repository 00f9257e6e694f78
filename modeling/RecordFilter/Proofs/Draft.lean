import RecordFilter.Draft
import RecordFilter.Proofs.Calendar.DateLike
import RecordFilter.Proofs.Expr.Tokens

/-!
# What drafts become

`Literal.IsAuthored` are the literals that booleans, integers, texts, dates and timestamps become;
each of them is read back from its text as what it is. `Draft.Reachable` are the drafts that steps
with given literals build. A complete draft has the text of its condition
(`Draft.text_of_condition`), and that condition is one that the language has if its operand can be
written (`Draft.isWritable_of_condition`).
-/

namespace RecordFilter

/-! ### Authored literals -/

/-- The literal of a boolean, an integer, a text, a date or a timestamp. -/
inductive Literal.IsAuthored : Literal → Prop where
  | boolean (b : Bool) : IsAuthored (.boolean b)
  | integer {n : Int} (fits : -0x8000000000000000 ≤ n ∧ n < 0x10000000000000000) :
      IsAuthored (.number (.integer n fits))
  | text (s : String) : IsAuthored (.ofText s)
  | date (d : Calendar.Date) : IsAuthored (.ofDate d)
  | timestamp (t : Calendar.Timestamp) : IsAuthored (.ofTimestamp t)

theorem Literal.isWritable_ofText (s : String) : (Literal.ofText s).IsWritable := by
  unfold ofText
  split
  · rename_i hdate
    exact hdate
  · rename_i hdate
    exact Bool.eq_false_iff.2 hdate

theorem Literal.isWritable_ofDate (d : Calendar.Date) : (Literal.ofDate d).IsWritable := by
  rw [ofDate, IsWritable, Calendar.isDateLike, Calendar.readDate?_text]
  exact Bool.or_true _

theorem Literal.isWritable_ofTimestamp (t : Calendar.Timestamp) :
    (Literal.ofTimestamp t).IsWritable := by
  unfold ofTimestamp
  split
  · rename_i hexpressible
    rw [IsWritable, Calendar.isDateLike, Calendar.Timestamp.isTimestamp_text hexpressible]
    rfl
  · exact t.isDateLike_longText

/-- **Authored literals can be written.** -/
theorem Literal.IsAuthored.isWritable {v : Literal} (h : v.IsAuthored) : v.IsWritable := by
  cases h with
  | boolean b => trivial
  | integer fits => trivial
  | text s => exact isWritable_ofText s
  | date d => exact isWritable_ofDate d
  | timestamp t => exact isWritable_ofTimestamp t

namespace Draft

/-! ### Reachable drafts -/

/-- The literal that a step is given, if it is given one. -/
def Step.value? : Step → Option Literal
  | newByAlias _ _ value | byAlias _ value | relate _ _ value => some value
  | new | newProperty _ | property _ | present | missing => none

/-- A draft that steps build when only some literals are given to them. -/
inductive Reachable (allowed : Literal → Prop) : Draft → Prop where
  | empty : Reachable allowed empty
  | step {d d' : Draft} {s : Step} : Reachable allowed d → (∀ v ∈ s.value?, allowed v) →
      d.step s = .ok d' → Reachable allowed d'

/-- An alias sets an operator that takes a value, with the given one. -/
theorem exists_of_setAlias {d d' : Draft} {alias_ : String} {v : Literal}
    (h : d.setAlias alias_ v = .ok d') :
    ∃ op, op.takesValue = true ∧ d' = d.setOperator op (some v) := by
  unfold setAlias at h
  split at h
  · rename_i op hop
    obtain rfl := Except.ok.inj h
    refine ⟨op, ?_, rfl⟩
    unfold Operator.ofAlias? at hop
    split at hop <;> simp at hop <;> rw [← hop] <;> rfl
  · simp at h

/-- The operand after a step is the given one, the one before it, or none. -/
theorem mem_value_of_step {d d' : Draft} {s : Step} (h : d.step s = .ok d') {v : Literal}
    (hv : v ∈ d'.value) : v ∈ s.value? ∨ v ∈ d.value := by
  cases s with
  | newByAlias property alias_ value | byAlias alias_ value =>
    obtain ⟨op, -, rfl⟩ := exists_of_setAlias h
    exact .inl hv
  | new | newProperty property | property property | relate op takesValue value | present
  | missing =>
    obtain rfl := Except.ok.inj h
    simp_all [Draft.empty, setProperty, setOperator, Step.value?]

/-- The operand of a reachable draft was given to a step. -/
theorem Reachable.allowed {allowed : Literal → Prop} {d : Draft} (h : d.Reachable allowed) :
    ∀ v ∈ d.value, allowed v := by
  induction h with
  | empty => simp [Draft.empty]
  | step _ hgiven hstep ih =>
    intro v hv
    rcases mem_value_of_step hstep hv with hmem | hmem
    · exact hgiven v hmem
    · exact ih v hmem

/-- A step leaves an operand behind exactly if the operator takes one. -/
theorem isSome_value_of_step {d d' : Draft} {s : Step} (h : d.step s = .ok d')
    (hd : ∀ op ∈ d.operator, d.value.isSome = op.takesValue) :
    ∀ op ∈ d'.operator, d'.value.isSome = op.takesValue := by
  cases s with
  | newByAlias property alias_ value | byAlias alias_ value =>
    obtain ⟨op, htakes, rfl⟩ := exists_of_setAlias h
    simp [setOperator, htakes]
  | property property =>
    obtain rfl := Except.ok.inj h
    exact hd
  | relate op takesValue value =>
    obtain rfl := Except.ok.inj h
    simp [setOperator, takesValue]
  | new | newProperty property | present | missing =>
    obtain rfl := Except.ok.inj h
    simp [Draft.empty, setProperty, setOperator, Operator.takesValue]

/-- A reachable draft with an operator has an operand exactly if the operator takes one. -/
theorem Reachable.isSome_value {allowed : Literal → Prop} {d : Draft} (h : d.Reachable allowed) :
    ∀ op ∈ d.operator, d.value.isSome = op.takesValue := by
  induction h with
  | empty => simp [Draft.empty]
  | step _ _ hstep ih => exact isSome_value_of_step hstep ih

/-! ### Complete drafts -/

/-- **A draft is complete** if it names a property and has an operator, with an operand if the
operator takes one. The condition drops an operand that the operator does not take. -/
theorem condition_eq_ok_iff {d : Draft} {c : Condition} :
    d.condition = .ok c ↔ c.property ≠ "" ∧ d.property = some c.property ∧
      d.operator = some c.operator ∧ c.value.isSome = c.operator.takesValue ∧
      c.value = if c.operator.takesValue then d.value else none := by
  constructor
  · intro h
    unfold condition at h
    split at h
    · simp at h
    · simp at h
    · rename_i property hne hproperty
      split at h
      · simp at h
      · rename_i op hoperator
        split at h
        · rename_i htakes
          split at h
          · rename_i v hvalue
            obtain rfl := Except.ok.inj h
            exact ⟨hne, hproperty, hoperator, by simp [htakes], by simp [htakes, hvalue]⟩
          · simp at h
        · rename_i htakes
          obtain rfl := Except.ok.inj h
          exact ⟨hne, hproperty, hoperator, by simp [htakes], by simp [htakes]⟩
  · rintro ⟨hne, hproperty, hoperator, hsome, hvalue⟩
    obtain ⟨property, op, value⟩ := c
    cases htakes : op.takesValue with
    | false => simp_all [condition]
    | true =>
      obtain ⟨v, rfl⟩ : ∃ v, value = some v := Option.isSome_iff_exists.1 (hsome.trans htakes)
      have hd : d.value = some v := by simpa [htakes] using hvalue.symm
      simp_all [condition]

/-- A complete draft has the text of its condition. -/
theorem text_of_condition {d : Draft} {c : Condition} (h : d.condition = .ok c) :
    d.text = c.text := by
  obtain ⟨-, hproperty, hoperator, hsome, hvalue⟩ := condition_eq_ok_iff.1 h
  rw [text, Condition.text, hproperty, hoperator, Option.getD_some]
  cases htakes : c.operator.takesValue with
  | false =>
    have hnone : c.value = none := by simpa [htakes] using hvalue
    simp [hnone, htakes]
  | true =>
    have hd : c.value = d.value := by simpa [htakes] using hvalue
    cases hv : d.value with
    | none => simp [hd, hv, htakes] at hsome
    | some v => simp [hd, hv, htakes]

/-- The condition of a complete draft is one that the language has, if its operand can be
written. -/
theorem isWritable_of_condition {d : Draft} {c : Condition} (h : d.condition = .ok c)
    (hvalue : ∀ v ∈ d.value, v.IsWritable) : c.IsWritable := by
  obtain ⟨hne, -, -, hsome, hc⟩ := condition_eq_ok_iff.1 h
  refine ⟨hne, hsome, fun v hv => ?_⟩
  rw [hc] at hv
  split at hv
  · exact hvalue v hv
  · simp at hv

end Draft

end RecordFilter
