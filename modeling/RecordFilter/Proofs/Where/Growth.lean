import RecordFilter.Proofs.Where.Reachable

/-!
# How groups grow

A group starts empty or with one clause, and clauses are added to it one after another. The first
addition fixes the join, whatever the group holds, and from then on an addition goes through exactly
if it is made under that join (`Where.add_of_join_eq_none`, `Where.add_of_join_eq_some`). So the
additions that go through are those under the join of the first one
(`Where.IsStart.accepted_eq_filter`), and their clauses are what the group has in the end
(`Where.clauses_run`).

A group of two clauses or more has been added to, so its text never falls back on the join that is
written where none is fixed (`Where.text_eq_of_join`).
-/

namespace RecordFilter.Where

variable {w : Where} {calls : List (Join × Clause)}

/-- A group to start with: one without clauses, or with one clause and no join yet. -/
inductive IsStart : Where → Prop where
  | empty : IsStart .empty
  | starting (c : Clause) : IsStart (.starting c)

/-- The additions that go through, in order, when some are made one after another. -/
def accepted (w : Where) : List (Join × Clause) → List (Join × Clause)
  | [] => []
  | (join, c) :: calls =>
    match w.add join c with
    | .ok w' => (join, c) :: w'.accepted calls
    | .error _ => w.accepted calls

/-! ### One addition -/

/-- As long as no join is fixed, any addition goes through and fixes it. -/
theorem add_of_join_eq_none (h : w.join = none) (join : Join) (c : Clause) :
    w.add join c = .ok ⟨some join, w.clauses ++ [c]⟩ :=
  add_eq_ok_iff.2 ⟨.inl h, rfl⟩

/-- Once the join is fixed, an addition goes through exactly if it is made under that join. -/
theorem add_of_join_eq_some {current : Join} (h : w.join = some current) (join : Join)
    (c : Clause) : w.add join c =
      if join = current then .ok ⟨some current, w.clauses ++ [c]⟩
      else .error (.mixedJoins current join) := by
  by_cases hsame : join = current
  · subst hsame
    rw [if_pos rfl]
    exact add_eq_ok_iff.2 ⟨.inr h, rfl⟩
  · simp [add, h, hsame, Ne.symm hsame]

/-! ### Any number of additions -/

/-- The first addition leaves the group with its clause and its join. -/
theorem run_cons_of_join_eq_none (h : w.join = none) (join : Join) (c : Clause)
    (calls : List (Join × Clause)) :
    w.run ((join, c) :: calls) = (⟨some join, w.clauses ++ [c]⟩ : Where).run calls := by
  rw [run, add_of_join_eq_none h]

/-- No addition changes a join that is fixed. -/
theorem join_run {current : Join} (h : w.join = some current) (calls : List (Join × Clause)) :
    (w.run calls).join = some current := by
  induction calls generalizing w with
  | nil => exact h
  | cons call calls ih =>
    rw [run, add_of_join_eq_some h]
    by_cases hsame : call.1 = current
    · rw [if_pos hsame]
      exact ih rfl
    · rw [if_neg hsame]
      exact ih h

/-- The clauses in the end are those from the start and those of the additions that went through. -/
theorem clauses_run (w : Where) (calls : List (Join × Clause)) :
    (w.run calls).clauses = w.clauses ++ (w.accepted calls).map Prod.snd := by
  induction calls generalizing w with
  | nil => simp [run, accepted]
  | cons call calls ih =>
    obtain ⟨join, c⟩ := call
    rw [run, accepted]
    cases hadd : w.add join c with
    | error e => exact ih w
    | ok w' =>
      obtain ⟨-, rfl⟩ := add_eq_ok_iff.1 hadd
      simp [ih]

/-- Once the join is fixed, the additions under it go through and no others. -/
theorem accepted_of_join_eq_some {current : Join} (h : w.join = some current)
    (calls : List (Join × Clause)) :
    w.accepted calls = calls.filter fun call => call.1 = current := by
  induction calls generalizing w with
  | nil => rfl
  | cons call calls ih =>
    rw [accepted, add_of_join_eq_some h, List.filter_cons]
    by_cases hsame : call.1 = current
    · simp only [hsame, if_true, decide_true]
      rw [ih rfl, ← hsame]
    · simp only [hsame, if_false, decide_false, Bool.false_eq_true]
      exact ih h

/-! ### From the start on -/

theorem IsStart.join_eq_none (h : w.IsStart) : w.join = none := by
  cases h with
  | empty => rfl
  | starting c => rfl

theorem IsStart.length_clauses_le (h : w.IsStart) : w.clauses.length ≤ 1 := by
  cases h with
  | empty => exact Nat.zero_le 1
  | starting c => exact Nat.le_refl 1

/-- The additions that go through are those under the join of the first one. -/
theorem IsStart.accepted_eq_filter (h : w.IsStart) (calls : List (Join × Clause)) :
    w.accepted calls = calls.filter fun call => calls.head?.map Prod.fst = some call.1 := by
  cases calls with
  | nil => rfl
  | cons call calls =>
    -- the first addition fixes the join that the later ones are held to
    have hlater : (⟨some call.1, w.clauses ++ [call.2]⟩ : Where).accepted calls = _ :=
      accepted_of_join_eq_some rfl calls
    rw [accepted, add_of_join_eq_none h.join_eq_none]
    simp [hlater, eq_comm]

/-- A group of two clauses or more has been added to, so its join is fixed. -/
theorem IsStart.isSome_join_run (h : w.IsStart) (hlength : 2 ≤ (w.run calls).clauses.length) :
    (w.run calls).join.isSome = true := by
  cases calls with
  | nil =>
    have hle := h.length_clauses_le
    rw [run] at hlength
    omega
  | cons call calls =>
    rw [run_cons_of_join_eq_none h.join_eq_none, join_run rfl]
    rfl

/-- Up to one clause there is nothing to separate, so any join may be thought of. -/
theorem text_eq_of_join (hjoin : 2 ≤ w.clauses.length → w.join.isSome = true) (join : Join) :
    w.text = "(" ++ String.intercalate (" " ++ (w.join.getD join).word ++ " ")
      (w.clauses.map Clause.text) ++ ")" := by
  rw [text, toClause, Clause.text, Clause.texts_eq_map]
  obtain ⟨fixed, clauses⟩ := w
  rcases clauses with _ | ⟨c, _ | ⟨c', clauses⟩⟩
  · rfl
  · rfl
  · cases fixed with
    | some current => rfl
    | none => exact absurd (hjoin (by simp)) (by simp)

/-- **A group keeps one join and all its clauses.** The first addition goes through and fixes the
join. A later one goes through exactly if it is made under that join, and otherwise it is refused
with both joins named. In the end the group has the clause that it started with, if any, and behind
it the clauses of the additions that went through, in their order; these are the additions under the
join of the first one. So a group of two clauses or more has its join fixed, and a text is never
written with a join that was not asked for. -/
theorem run_keeps_join_and_clauses {w : Where} (h : w.IsStart) :
    (∀ join c, w.add join c = .ok ⟨some join, w.clauses ++ [c]⟩) ∧
    (∀ first c calls join c',
      (w.run ((first, c) :: calls)).join = some first ∧
      (w.run ((first, c) :: calls)).add join c' =
        if join = first then .ok ⟨some first, (w.run ((first, c) :: calls)).clauses ++ [c']⟩
        else .error (.mixedJoins first join)) ∧
    ∀ calls,
      (w.run calls).clauses = w.clauses ++ (w.accepted calls).map Prod.snd ∧
      w.accepted calls =
        calls.filter (fun call => calls.head?.map Prod.fst = some call.1) ∧
      (2 ≤ (w.run calls).clauses.length → (w.run calls).join.isSome = true) ∧
      ∀ join, (w.run calls).text =
        "(" ++ String.intercalate (" " ++ ((w.run calls).join.getD join).word ++ " ")
          ((w.run calls).clauses.map Clause.text) ++ ")" := by
  refine ⟨add_of_join_eq_none h.join_eq_none, ?_, ?_⟩
  · intro first c calls join c'
    have hjoin : (w.run ((first, c) :: calls)).join = some first := by
      rw [run_cons_of_join_eq_none h.join_eq_none]
      exact join_run rfl calls
    exact ⟨hjoin, add_of_join_eq_some hjoin join c'⟩
  · intro calls
    exact ⟨clauses_run w calls, h.accepted_eq_filter calls, h.isSome_join_run,
      text_eq_of_join h.isSome_join_run⟩

/-- A start with raw text, and three additions of which the second one is refused. -/
theorem run_keeps_join_and_clauses_refused : ∃ w : Where, w.IsStart ∧
    (w.run [(.or, .raw "b")]).add .and (.raw "c") = .error (.mixedJoins .or .and) ∧
    (w.run [(.or, .raw "b"), (.and, .raw "c"), (.or, .raw "d")]).clauses =
      [.raw "a", .raw "b", .raw "d"] ∧
    (w.run [(.or, .raw "b"), (.and, .raw "c"), (.or, .raw "d")]).text = "(a or b or d)" := by
  have hstart : IsStart (.starting (.raw "a")) := .starting (.raw "a")
  obtain ⟨-, hlater, hrun⟩ := run_keeps_join_and_clauses hstart
  have hrefused := (hlater .or (.raw "b") [] .and (.raw "c")).2
  obtain ⟨hclauses, haccepted, -, htext⟩ :=
    hrun [(.or, .raw "b"), (.and, .raw "c"), (.or, .raw "d")]
  exact ⟨_, hstart, hrefused.trans rfl, by rw [hclauses, haccepted]; rfl,
    (htext .and).trans (by decide +kernel)⟩

end RecordFilter.Where
