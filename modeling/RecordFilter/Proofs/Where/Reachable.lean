import RecordFilter.Proofs.Draft
import RecordFilter.Where

/-!
# Reachable groups

The groups and clauses that the operations of `Where` build, when drafts are built from allowed
literals only: `Where.Reachable` and `Clause.Reachable`. What is inside a clause is listed by
`Clause.drafts` and `Clause.groups`; in a reachable clause every draft is reachable.
-/

namespace RecordFilter

/-! ### What is inside a clause -/

namespace Clause

mutual

/-- The drafts in a clause. -/
def drafts : Clause → List Draft
  | draft d => [d]
  | nested _ clauses => draftsOfAll clauses
  | raw _ => []

/-- The drafts in some clauses. -/
def draftsOfAll : List Clause → List Draft
  | [] => []
  | c :: cs => c.drafts ++ draftsOfAll cs

end

mutual

/-- The groups in a clause, each with its join, once that is fixed, and its clauses. -/
def groups : Clause → List (Option Join × List Clause)
  | draft _ => []
  | nested join clauses => (join, clauses) :: groupsOfAll clauses
  | raw _ => []

/-- The groups in some clauses. -/
def groupsOfAll : List Clause → List (Option Join × List Clause)
  | [] => []
  | c :: cs => c.groups ++ groupsOfAll cs

end

theorem draftsOfAll_append (cs cs' : List Clause) :
    draftsOfAll (cs ++ cs') = draftsOfAll cs ++ draftsOfAll cs' := by
  induction cs with
  | nil => rfl
  | cons c cs ih => rw [List.cons_append, draftsOfAll, ih, draftsOfAll, List.append_assoc]

theorem texts_eq_map : ∀ cs : List Clause, texts cs = cs.map text
  | [] => rfl
  | c :: cs => by rw [texts, texts_eq_map cs, List.map_cons]

end Clause

/-! ### Reachability -/

/-- A clause is added under the join that is fixed, or under any join if none is. -/
theorem Where.add_eq_ok_iff {w w' : Where} {join : Join} {c : Clause} :
    w.add join c = .ok w' ↔
      (w.join = none ∨ w.join = some join) ∧ w' = ⟨some join, w.clauses ++ [c]⟩ := by
  unfold add
  split
  · rename_i hjoin
    simp [hjoin, eq_comm]
  · rename_i current hjoin
    by_cases hsame : current = join
    · simp [hjoin, hsame, eq_comm]
    · simp [hjoin, hsame]

mutual

/-- A group that the operations build when only some literals are given to drafts. -/
inductive Where.Reachable (allowed : Literal → Prop) : Where → Prop where
  | empty : Where.Reachable allowed .empty
  | starting {c : Clause} : Clause.Reachable allowed c → Where.Reachable allowed (.starting c)
  | add {w w' : Where} {join : Join} {c : Clause} : Where.Reachable allowed w →
      Clause.Reachable allowed c → w.add join c = .ok w' → Where.Reachable allowed w'

/-- A clause that is a reachable draft, a reachable group, or any raw text. -/
inductive Clause.Reachable (allowed : Literal → Prop) : Clause → Prop where
  | draft {d : Draft} : d.Reachable allowed → Clause.Reachable allowed (.draft d)
  | nested {w : Where} : Where.Reachable allowed w → Clause.Reachable allowed w.toClause
  | raw (text : String) : Clause.Reachable allowed (.raw text)

end

mutual

/-- Every draft in a reachable group is reachable. -/
theorem Where.Reachable.drafts {allowed : Literal → Prop} : ∀ {w : Where},
    w.Reachable allowed → ∀ d ∈ w.toClause.drafts, d.Reachable allowed
  | _, .empty => by simp [Where.empty, Where.toClause, Clause.drafts, Clause.draftsOfAll]
  | _, .starting hc => by
    have hdrafts := hc.drafts
    simpa [Where.starting, Where.toClause, Clause.drafts, Clause.draftsOfAll] using hdrafts
  | _, .add (w := w) (c := c) hw hc hadd => by
    obtain ⟨-, rfl⟩ := Where.add_eq_ok_iff.1 hadd
    intro d hd
    have hmem : d ∈ w.toClause.drafts ∨ d ∈ c.drafts := by
      simpa [Where.toClause, Clause.drafts, Clause.draftsOfAll_append, Clause.draftsOfAll] using hd
    rcases hmem with hmem | hmem
    · exact hw.drafts d hmem
    · exact hc.drafts d hmem

/-- Every draft in a reachable clause is reachable. -/
theorem Clause.Reachable.drafts {allowed : Literal → Prop} : ∀ {c : Clause},
    c.Reachable allowed → ∀ d ∈ c.drafts, d.Reachable allowed
  | _, .draft hd => by simpa [Clause.drafts] using hd
  | _, .nested hw => hw.drafts
  | _, .raw _ => by simp [Clause.drafts]

end

end RecordFilter
