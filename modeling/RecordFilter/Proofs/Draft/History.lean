import RecordFilter.Proofs.Where.Completeness

/-!
# What the steps leave behind

A draft after any number of steps, told from the steps alone. Steps that start over forget what was
before them, so only those from the last one of them on count (`Draft.sinceReplaced`). Among these
the property is the one that was named last, and operator and operand are those of the last step
that sets an operator (`Draft.run_eq`); steps that fail name and set nothing. The text of such a
draft denotes its condition, if it has one and the operand is no number that is not finite, and is
refused otherwise (`Draft.parse_text_eq_ok_iff`).
-/

namespace RecordFilter.Draft

/-! ### What a step does -/

namespace Step

/-- The step succeeds: it uses no alias, or one that an operator has. -/
def isTaken : Step → Bool
  | newByAlias _ alias_ _ | byAlias alias_ _ => (Operator.ofAlias? alias_).isSome
  | new | newProperty _ | property _ | relate _ _ _ | present | missing => true

/-- The step succeeds and starts over. -/
def replaces : Step → Bool
  | new | newProperty _ => true
  | newByAlias _ alias_ _ => (Operator.ofAlias? alias_).isSome
  | property _ | byAlias _ _ | relate _ _ _ | present | missing => false

theorem isTaken_of_replaces {s : Step} (h : s.replaces = true) : s.isTaken = true := by
  cases s with
  | new | newProperty _ => rfl
  | newByAlias _ _ _ => exact h
  | property _ | byAlias _ _ | relate _ _ _ | present | missing => simp [replaces] at h

/-- The property that the step sets, if it succeeds and sets one. -/
def named? : Step → Option String
  | newProperty name | property name => some name
  | newByAlias name alias_ _ => (Operator.ofAlias? alias_).map fun _ => name
  | new | byAlias _ _ | relate _ _ _ | present | missing => none

/-- The operator that the step sets with its operand, if it succeeds and sets one. -/
def operation? : Step → Option (Operator × Option Literal)
  | newByAlias _ alias_ value | byAlias alias_ value =>
    (Operator.ofAlias? alias_).map fun op => (op, some value)
  | relate op _ value => some (op, some value)
  | present => some (.present, none)
  | missing => some (.missing, none)
  | new | newProperty _ | property _ => none

end Step

/-- The steps from the last one on that starts over, or all of them if none does. -/
def sinceReplaced : List Step → List Step
  | [] => []
  | s :: steps => if steps.any Step.replaces then sinceReplaced steps else s :: steps

/-- The property that was set last. -/
def lastNamed? (steps : List Step) : Option String := (steps.filterMap Step.named?).getLast?

/-- The operator that was set last, with its operand. -/
def lastOperation? (steps : List Step) : Option (Operator × Option Literal) :=
  (steps.filterMap Step.operation?).getLast?

variable {d d' : Draft} {s : Step} {steps : List Step}

/-- A draft in which the property and the operator with its operand are set, as far as they are
given. -/
def overlaid (d : Draft) (property : Option String)
    (operation : Option (Operator × Option Literal)) : Draft where
  property := property.or d.property
  operator := (operation.map Prod.fst).or d.operator
  value := (operation.map Prod.snd).getD d.value

theorem overlaid_none (d : Draft) : d.overlaid none none = d := rfl

theorem overlaid_overlaid (d : Draft) (property property' : Option String)
    (operation operation' : Option (Operator × Option Literal)) :
    (d.overlaid property operation).overlaid property' operation' =
      d.overlaid (property'.or property) (operation'.or operation) := by
  cases operation' with
  | none => simp [overlaid, Option.or_assoc]
  | some o => simp [overlaid, Option.or_assoc]

theorem overlaid_empty (property : Option String)
    (operation : Option (Operator × Option Literal)) : empty.overlaid property operation =
      ⟨property, operation.map Prod.fst, operation.bind Prod.snd⟩ := by
  cases property <;> cases operation <;> rfl

/-! ### One step -/

theorem exists_step_eq_ok_iff (d : Draft) (s : Step) :
    (∃ d', d.step s = .ok d') ↔ s.isTaken = true := by
  cases s with
  | newByAlias name alias_ value | byAlias alias_ value =>
    cases h : Operator.ofAlias? alias_ <;> simp [step, setAlias, Step.isTaken, h]
  | new | newProperty _ | property _ | relate _ _ _ | present | missing =>
    simp [step, Step.isTaken]

/-- A step that starts over does not look at the draft. -/
theorem step_of_replaces (h : s.replaces = true) (d d' : Draft) : d.step s = d'.step s := by
  cases s with
  | new | newProperty _ | newByAlias _ _ _ => rfl
  | property _ | byAlias _ _ | relate _ _ _ | present | missing => simp [Step.replaces] at h

/-- A step that does not start over, and any step on an empty draft, changes what it sets. -/
theorem eq_overlaid_of_step (h : d.step s = .ok d') (hd : s.replaces = false ∨ d = empty) :
    d' = d.overlaid s.named? s.operation? := by
  cases s with
  | new | newProperty name =>
    obtain rfl : d = empty := hd.resolve_left (by simp [Step.replaces])
    exact (Except.ok.inj h).symm
  | newByAlias name alias_ value =>
    cases halias : Operator.ofAlias? alias_ with
    | none => simp [step, setAlias, halias] at h
    | some op =>
      obtain rfl : d = empty := hd.resolve_left (by simp [Step.replaces, halias])
      obtain rfl : (empty.setProperty name).setOperator op (some value) = d' := by
        simpa [step, setAlias, halias] using h
      simp [overlaid, Step.named?, Step.operation?, halias, setOperator, setProperty]
  | byAlias alias_ value =>
    cases halias : Operator.ofAlias? alias_ with
    | none => simp [step, setAlias, halias] at h
    | some op =>
      obtain rfl : d.setOperator op (some value) = d' := by
        simpa [step, setAlias, halias] using h
      simp [overlaid, Step.named?, Step.operation?, halias, setOperator]
  | property _ | relate _ _ _ | present | missing => exact (Except.ok.inj h).symm

/-- A step that fails sets nothing. -/
theorem sets_nothing_of_step_error {e : Error} (h : d.step s = .error e) :
    s.named? = none ∧ s.operation? = none := by
  cases s with
  | newByAlias name alias_ value | byAlias alias_ value =>
    cases halias : Operator.ofAlias? alias_ with
    | none => simp [Step.named?, Step.operation?, halias]
    | some op => simp [step, setAlias, halias] at h
  | new | newProperty _ | property _ | relate _ _ _ | present | missing => simp [step] at h

/-! ### Any number of steps -/

/-- A run goes on from what its first step leaves. -/
theorem run_cons_eq (hd : s.replaces = false ∨ d = empty) :
    d.run (s :: steps) = (d.overlaid s.named? s.operation?).run steps := by
  rw [run]
  cases hstep : d.step s with
  | ok d' => rw [eq_overlaid_of_step hstep hd]
  | error e =>
    obtain ⟨hnamed, hoperation⟩ := sets_nothing_of_step_error hstep
    rw [hnamed, hoperation, overlaid_none]

/-- Of the values that a list gives, the last one is from behind if there is one. -/
theorem getLast?_filterMap_cons {α β : Type} (f : α → Option β) (a : α) (as : List α) :
    ((a :: as).filterMap f).getLast? = (as.filterMap f).getLast?.or (f a) := by
  cases h : f a with
  | none => simp [h]
  | some b =>
    rw [List.filterMap_cons_some h, List.getLast?_cons]
    cases (as.filterMap f).getLast? <;> rfl

/-- Without a step that starts over, what was set last is what is set in the end. -/
theorem run_eq_overlaid (h : steps.any Step.replaces = false) (d : Draft) :
    d.run steps = d.overlaid (lastNamed? steps) (lastOperation? steps) := by
  induction steps generalizing d with
  | nil => rfl
  | cons s steps ih =>
    obtain ⟨hs, hsteps⟩ : s.replaces = false ∧ steps.any Step.replaces = false := by
      simpa only [List.any_cons, Bool.or_eq_false_iff] using h
    rw [run_cons_eq (.inl hs), ih hsteps, overlaid_overlaid, lastNamed?, lastOperation?, lastNamed?,
      lastOperation?, getLast?_filterMap_cons, getLast?_filterMap_cons]

/-- Of the steps that count, at most the first one starts over. -/
theorem sinceReplaced_cases (steps : List Step) : sinceReplaced steps = [] ∨
    ∃ s later, sinceReplaced steps = s :: later ∧ later.any Step.replaces = false := by
  induction steps with
  | nil => exact .inl rfl
  | cons s steps ih =>
    rw [sinceReplaced]
    by_cases hsteps : steps.any Step.replaces = true
    · rw [if_pos hsteps]
      exact ih
    · rw [if_neg hsteps]
      exact .inr ⟨s, steps, rfl, by simpa using hsteps⟩

/-- What was before the last step that starts over is forgotten. -/
theorem run_eq_run_sinceReplaced (h : steps.any Step.replaces = true) (d : Draft) :
    d.run steps = empty.run (sinceReplaced steps) := by
  induction steps generalizing d with
  | nil => simp at h
  | cons s steps ih =>
    rw [sinceReplaced]
    by_cases hsteps : steps.any Step.replaces = true
    · rw [if_pos hsteps, run]
      cases d.step s with
      | ok d' => exact ih hsteps d'
      | error e => exact ih hsteps d
    · -- this is the last step that starts over, so it may as well meet an empty draft
      have hs : s.replaces = true := by simpa [hsteps] using h
      obtain ⟨d', hd'⟩ := (exists_step_eq_ok_iff empty s).2 (Step.isTaken_of_replaces hs)
      rw [if_neg hsteps, run, run, step_of_replaces hs d empty, hd']

/-- **A draft is what was set last** since the last step that started over. -/
theorem run_eq (steps : List Step) : empty.run steps =
    empty.overlaid (lastNamed? (sinceReplaced steps)) (lastOperation? (sinceReplaced steps)) := by
  -- without a step that starts over all of them count, and the draft is empty at the start anyway
  have hsince : empty.run steps = empty.run (sinceReplaced steps) := by
    cases steps with
    | nil => rfl
    | cons s steps =>
      by_cases hsteps : (s :: steps).any Step.replaces = true
      · exact run_eq_run_sinceReplaced hsteps empty
      · obtain ⟨-, hlater⟩ : s.replaces = false ∧ steps.any Step.replaces = false := by
          simpa only [List.any_cons, Bool.or_eq_true, Bool.not_eq_true, not_or] using hsteps
        rw [sinceReplaced, if_neg (by simp [hlater])]
  rw [hsince]
  rcases sinceReplaced_cases steps with hnil | ⟨s, later, hcons, hlater⟩
  · rw [hnil]
    rfl
  · rw [hcons, run_cons_eq (.inr rfl), run_eq_overlaid hlater, overlaid_overlaid, lastNamed?,
      lastOperation?, lastNamed?, lastOperation?, getLast?_filterMap_cons, getLast?_filterMap_cons]

/-- The literals of a run are those that its steps are given. -/
theorem reachable_run {allowed : Literal → Prop} (h : ∀ s ∈ steps, ∀ v ∈ s.value?, allowed v)
    {d : Draft} (hd : d.Reachable allowed) : (d.run steps).Reachable allowed := by
  induction steps generalizing d with
  | nil => exact hd
  | cons s steps ih =>
    obtain ⟨hs, hsteps⟩ := List.forall_mem_cons.1 h
    rw [run]
    cases hstep : d.step s with
    | ok d' => exact ih hsteps (hd.step hs hstep)
    | error e => exact ih hsteps hd

/-! ### Reading the draft back -/

/-- An operand is there exactly if there is an operator that takes one. -/
theorem isSome_value_run_iff (steps : List Step) : (empty.run steps).value.isSome = true ↔
    ∃ op, (empty.run steps).operator = some op ∧ op.takesValue = true := by
  have hreachable : (empty.run steps).Reachable fun _ => True :=
    reachable_run (fun _ _ _ _ => trivial) .empty
  have hvalue := hreachable.isSome_value
  have hrun := run_eq steps
  cases hop : (empty.run steps).operator with
  | some op => simp [hvalue op hop]
  | none =>
    have hlast : lastOperation? (sinceReplaced steps) = none := by
      rw [hrun] at hop
      simpa [overlaid, empty] using hop
    rw [hrun, hlast]
    simp [overlaid, empty]

/-- The draft has a condition exactly if it names a property and has an operator, and the condition
has its property, its operator and its operand. -/
theorem condition_run_eq_ok_iff {c : Condition} : (empty.run steps).condition = .ok c ↔
    c.property ≠ "" ∧ (empty.run steps).property = some c.property ∧
      (empty.run steps).operator = some c.operator ∧ (empty.run steps).value = c.value := by
  have hvalue := isSome_value_run_iff steps
  rw [condition_eq_ok_iff]
  refine and_congr_right fun _ => and_congr_right fun _ => and_congr_right fun hop => ?_
  rw [hop] at hvalue
  -- the operand is there or not as the operator has it, so nothing is asked of it
  cases htakes : c.operator.takesValue with
  | false =>
    have hnone : (empty.run steps).value = none := by simpa [htakes] using hvalue
    rw [hnone]
    cases c.value <;> simp
  | true =>
    have hsome : (empty.run steps).value.isSome = true := by simpa [htakes] using hvalue
    constructor
    · rintro ⟨-, hc⟩
      exact hc.symm
    · intro hc
      rw [← hc]
      exact ⟨hsome, rfl⟩

/-- **What the text of a draft denotes**: the condition of the draft, if it has one and the operand
is no number that is not finite, and nothing otherwise. -/
theorem parse_text_eq_ok_iff {d : Draft} (hd : d.Reachable Literal.IsGiven) {e : Expr} :
    Expr.parse d.text = .ok e ↔
      ∃ c, e = .condition c ∧ d.condition = .ok c ∧ ∀ v ∈ d.value, v.kind ≠ .nonFinite := by
  have hparse {c : Condition} (hc : d.condition = .ok c) (hvalue : ∀ v ∈ d.value, v.IsWritable) :
      Expr.parse d.text = .ok (.condition c) := by
    have hwritable : Expr.IsWritable (.condition c) := by
      refine ⟨?_, ?_, ?_, Nat.zero_le _⟩
      · simpa [Expr.conditions] using isWritable_of_condition hc hvalue
      · simp [Expr.groups]
      · simp [Expr.groups]
    rw [text_of_condition hc]
    exact Expr.parse_text hwritable
  constructor
  · intro h
    have haccepts : Parser.Accepts .start (d.text.toList ++ []) := by
      rw [List.append_nil]
      exact Parser.exists_parse_iff.1 ⟨e, h⟩
    obtain ⟨hcomplete, -⟩ := isComplete_of_accepts hd rfl .nothing haccepts
    obtain ⟨c, hc⟩ := hcomplete.exists_condition hd
    have hwritable := hcomplete.isWritable_value hd
    refine ⟨c, Except.ok.inj (h.symm.trans (hparse hc hwritable)), hc, fun v hv => ?_⟩
    exact (hwritable v hv).kind_ne
  · rintro ⟨c, rfl, hc, hfinite⟩
    refine hparse hc fun v hv => ?_
    -- given literals that cannot be written are numbers that are not finite
    rcases (hd.allowed v hv).cases with hwritable | ⟨x, -, rfl⟩
    · exact hwritable
    · exact absurd rfl (hfinite _ hv)

/-- **What any steps leave behind.** Only a step with an alias that no operator has fails. Counting
from the last step that started over, the property is the one that was set last, and operator and
operand are those of the last step that set an operator; there is an operand exactly if there is an
operator that takes one. The draft has a condition exactly if it names a property and has an
operator. Its text denotes that condition, unless the operand is a number that is not finite, and is
refused in every other case. -/
theorem run_recounted {steps : List Step} (hgiven : ∀ s ∈ steps, ∀ v ∈ s.value?, v.IsGiven) :
    (∀ d s, (∃ d', step d s = .ok d') ↔ s.isTaken = true) ∧
    (empty.run steps).property = lastNamed? (sinceReplaced steps) ∧
    (empty.run steps).operator = (lastOperation? (sinceReplaced steps)).map Prod.fst ∧
    (empty.run steps).value = (lastOperation? (sinceReplaced steps)).bind Prod.snd ∧
    ((empty.run steps).value.isSome = true ↔
      ∃ op, (empty.run steps).operator = some op ∧ op.takesValue = true) ∧
    ((∃ c, (empty.run steps).condition = .ok c) ↔
      (∃ property, (empty.run steps).property = some property ∧ property ≠ "") ∧
        ∃ op, (empty.run steps).operator = some op) ∧
    (∀ c, (empty.run steps).condition = .ok c → (empty.run steps).property = some c.property ∧
      (empty.run steps).operator = some c.operator ∧ (empty.run steps).value = c.value) ∧
    (∀ c, Expr.parse (empty.run steps).text = .ok (.condition c) ↔
      (empty.run steps).condition = .ok c ∧
        ∀ v ∈ (empty.run steps).value, v.kind ≠ .nonFinite) ∧
    ((∃ fault, Expr.parse (empty.run steps).text = .error fault) ↔
      ¬ ∃ c, (empty.run steps).condition = .ok c ∧
        ∀ v ∈ (empty.run steps).value, v.kind ≠ .nonFinite) := by
  have hreachable := reachable_run hgiven .empty
  have hrun := run_eq steps
  refine ⟨exists_step_eq_ok_iff, ?_, ?_, ?_, isSome_value_run_iff steps, ?_, ?_, ?_, ?_⟩
  · rw [hrun, overlaid_empty]
  · rw [hrun, overlaid_empty]
  · rw [hrun, overlaid_empty]
  · constructor
    · rintro ⟨c, hc⟩
      obtain ⟨hne, hproperty, hop, -⟩ := condition_run_eq_ok_iff.1 hc
      exact ⟨⟨_, hproperty, hne⟩, _, hop⟩
    · rintro ⟨⟨property, hproperty, hne⟩, op, hop⟩
      exact ⟨⟨property, op, (empty.run steps).value⟩,
        condition_run_eq_ok_iff.2 ⟨hne, hproperty, hop, rfl⟩⟩
  · intro c hc
    exact (condition_run_eq_ok_iff.1 hc).2
  · intro c
    rw [parse_text_eq_ok_iff hreachable]
    simp
  · constructor
    · rintro ⟨fault, hfault⟩ ⟨c, hc⟩
      have hparse := (parse_text_eq_ok_iff hreachable).2 ⟨c, rfl, hc⟩
      rw [hfault] at hparse
      simp at hparse
    · intro hnone
      cases hparse : Expr.parse (empty.run steps).text with
      | error fault => exact ⟨fault, rfl⟩
      | ok e =>
        obtain ⟨c, -, hc⟩ := (parse_text_eq_ok_iff hreachable).1 hparse
        exact absurd ⟨c, hc⟩ hnone

/-- Steps that start over, that fail, that set an operator without an operand, and that set the
property behind the operator: the draft is read back with the kind of its operand. The same steps
with another one that sets minus infinity leave a draft that is refused. -/
theorem run_recounted_replaced : ∃ steps steps' : List Step,
    (∀ s ∈ steps', ∀ v ∈ s.value?, v.IsGiven) ∧ steps <+: steps' ∧
    (empty.run steps).text = "\"a \\\"and\\\"\" <= \"2024-02-29\"" ∧
    Expr.parse (empty.run steps).text =
      .ok (.condition ⟨"a \"and\"", .atMost, some (.date "2024-02-29")⟩) ∧
    (empty.run steps').text = "\"a \\\"and\\\"\" < -inf" ∧
    ∃ fault, Expr.parse (empty.run steps').text = .error fault := by
  let minusInfinity : Binary64 := .infinity true
  let steps : List Step := [.newByAlias "old" "eq" (.boolean true), .newProperty "b",
    .byAlias "exists" (.boolean true), .present, .newByAlias "c" "<" (.boolean true),
    .byAlias "lte" (.ofText "2024-02-29"), .property "a \"and\""]
  let steps' : List Step := steps ++ [.relate .less rfl (.ofBinary64 minusInfinity)]
  have hgiven : ∀ s ∈ steps', ∀ v ∈ s.value?, v.IsGiven := by
    have hboolean : (Literal.boolean true).IsGiven := .authored (.boolean true)
    have hdate : (Literal.ofText "2024-02-29").IsGiven := .authored (.text _)
    have hinfinite : (Literal.ofBinary64 minusInfinity).IsGiven := .nonFinite _ (by decide)
    simp [steps', steps, Step.value?, hboolean, hdate, hinfinite]
  have hgiven' : ∀ s ∈ steps, ∀ v ∈ s.value?, v.IsGiven := fun s hs =>
    hgiven s (List.mem_append_left _ hs)
  obtain ⟨-, -, -, -, -, -, -, hparse, -⟩ := run_recounted hgiven'
  obtain ⟨-, -, -, -, -, -, -, -, hrefused⟩ := run_recounted hgiven
  refine ⟨steps, steps', hgiven, List.prefix_append _ _, by decide +kernel, ?_, by decide +kernel, ?_⟩
  · refine (hparse _).2 ⟨by decide +kernel, ?_⟩
    decide +kernel
  · refine hrefused.2 ?_
    rintro ⟨c, -, hfinite⟩
    exact hfinite (.nonFinite minusInfinity) (by decide +kernel) rfl

end RecordFilter.Draft
