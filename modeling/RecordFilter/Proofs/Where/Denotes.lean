import RecordFilter.Proofs.Expr.Shape
import RecordFilter.Proofs.Where.Reachable

/-!
# What groups without raw text denote

`Clause.Denotes` relates clauses without raw text to expressions, one constructor for a draft and
one for a group; the expression of a clause is what it denotes (`Clause.denotes_of_expr`,
`Denotes.expr_eq`), and it denotes something if its drafts are complete (`Clause.exists_denotes`). A
clause is written as what it denotes (`Denotes.text_eq`), has the same conditions in the same order,
and the same groups up to joins that are not fixed.
-/

namespace RecordFilter

namespace Clause

mutual

/-- A clause without raw text denotes an expression: a complete draft its condition, and a group
the group of what its clauses denote, joined by `and` where no join is fixed. -/
inductive Denotes : Clause → Expr → Prop where
  | draft {d : Draft} {c : Condition} : d.condition = .ok c → Denotes (.draft d) (.condition c)
  | nested {join : Option Join} {cs : List Clause} {es : List Expr} : DenoteAll cs es →
      Denotes (.nested join cs) (.group (join.getD .and) es)

/-- Clauses denote expressions one by one. -/
inductive DenoteAll : List Clause → List Expr → Prop where
  | nil : DenoteAll [] []
  | cons {c : Clause} {e : Expr} {cs : List Clause} {es : List Expr} : Denotes c e →
      DenoteAll cs es → DenoteAll (c :: cs) (e :: es)

end

mutual

/-- Without raw text, the expression of a clause is what it denotes. -/
theorem denotes_of_expr : ∀ (c : Clause) {e : Expr}, c.containsRaw = false → c.expr = .ok e →
    c.Denotes e
  | .draft d, e, _, h => by
    rw [expr] at h
    split at h
    · rename_i hcondition
      obtain rfl := Except.ok.inj h
      exact .draft hcondition
    · simp at h
  | .nested join cs, e, hraw, h => by
    have hraws : containsRawAny cs = false := by simpa [containsRaw] using hraw
    rw [expr, if_neg (by simp [hraws])] at h
    cases hes : exprs cs with
    | error fault => simp [hes, Except.map] at h
    | ok es =>
      obtain rfl : Expr.group (join.getD .and) es = e := by simpa [hes, Except.map] using h
      exact .nested (denoteAll_of_exprs cs hraws hes)
  | .raw t, e, hraw, _ => by simp [containsRaw] at hraw

theorem denoteAll_of_exprs : ∀ (cs : List Clause) {es : List Expr}, containsRawAny cs = false →
    exprs cs = .ok es → DenoteAll cs es
  | [], es, _, h => by
    obtain rfl := Except.ok.inj h
    exact .nil
  | c :: cs, es, hraw, h => by
    obtain ⟨hc, hcs⟩ : c.containsRaw = false ∧ containsRawAny cs = false := by
      simpa [containsRawAny] using hraw
    rw [exprs] at h
    cases he : c.expr with
    | error fault => simp [he] at h
    | ok e =>
      cases hes : exprs cs with
      | error fault => simp [he, hes, Except.map] at h
      | ok es' =>
        obtain rfl : e :: es' = es := by simpa [he, hes, Except.map] using h
        exact .cons (denotes_of_expr c hc he) (denoteAll_of_exprs cs hcs hes)

end

mutual

/-- A clause denotes an expression if no raw text is in it and its drafts are complete. -/
theorem exists_denotes : ∀ c : Clause, c.containsRaw = false →
    (∀ d ∈ c.drafts, ∃ condition, d.condition = .ok condition) → ∃ e, c.Denotes e
  | .draft d, _, hdrafts => by
    obtain ⟨condition, h⟩ := hdrafts d (by simp [drafts])
    exact ⟨_, .draft h⟩
  | .nested join cs, hraw, hdrafts => by
    obtain ⟨es, hes⟩ := exists_denoteAll cs (by simpa [containsRaw] using hraw) hdrafts
    exact ⟨_, .nested hes⟩
  | .raw _, hraw, _ => by simp [containsRaw] at hraw

theorem exists_denoteAll : ∀ cs : List Clause, containsRawAny cs = false →
    (∀ d ∈ draftsOfAll cs, ∃ condition, d.condition = .ok condition) → ∃ es, DenoteAll cs es
  | [], _, _ => ⟨[], .nil⟩
  | c :: cs, hraw, hdrafts => by
    obtain ⟨hc, hcs⟩ : c.containsRaw = false ∧ containsRawAny cs = false := by
      simpa [containsRawAny] using hraw
    obtain ⟨e, he⟩ := exists_denotes c hc fun d hd => hdrafts d (List.mem_append_left _ hd)
    obtain ⟨es, hes⟩ := exists_denoteAll cs hcs fun d hd => hdrafts d (List.mem_append_right _ hd)
    exact ⟨e :: es, .cons he hes⟩

end

mutual

/-- No raw text is in a clause that denotes something. -/
theorem Denotes.containsRaw_eq : ∀ {c : Clause} {e : Expr}, c.Denotes e → c.containsRaw = false
  | _, _, .draft _ => rfl
  | _, _, .nested h => h.containsRaw_eq

theorem DenoteAll.containsRaw_eq : ∀ {cs : List Clause} {es : List Expr}, DenoteAll cs es →
    containsRawAny cs = false
  | _, _, .nil => rfl
  | _, _, .cons h hs => by rw [containsRawAny, h.containsRaw_eq, hs.containsRaw_eq, Bool.or_false]

end

mutual

/-- What a clause denotes is its expression. -/
theorem Denotes.expr_eq : ∀ {c : Clause} {e : Expr}, c.Denotes e → c.expr = .ok e
  | _, _, .draft h => by rw [expr, h]
  | _, _, .nested h => by rw [expr, if_neg (by simp [h.containsRaw_eq]), h.exprs_eq]; rfl

theorem DenoteAll.exprs_eq : ∀ {cs : List Clause} {es : List Expr}, DenoteAll cs es →
    exprs cs = .ok es
  | _, _, .nil => rfl
  | _, _, .cons h hs => by rw [exprs, h.expr_eq, hs.exprs_eq]; rfl

end

/-! ### Texts, conditions and groups -/

mutual

/-- **A clause is written as what it denotes.** -/
theorem Denotes.text_eq : ∀ {c : Clause} {e : Expr}, c.Denotes e → c.text = e.text
  | _, _, .draft h => by rw [text, Expr.text, Draft.text_of_condition h]
  | _, _, .nested h => by rw [text, Expr.text, h.texts_eq]

theorem DenoteAll.texts_eq : ∀ {cs : List Clause} {es : List Expr}, DenoteAll cs es →
    texts cs = Expr.texts es
  | _, _, .nil => rfl
  | _, _, .cons h hs => by rw [texts, Expr.texts, h.text_eq, hs.texts_eq]

end

mutual

/-- The conditions of what a clause denotes are those of its drafts, in their order. -/
theorem Denotes.conditions_eq : ∀ {c : Clause} {e : Expr}, c.Denotes e →
    c.drafts.map Draft.condition = e.conditions.map .ok
  | _, _, .draft h => by rw [drafts, Expr.conditions, List.map_singleton, h]; rfl
  | _, _, .nested h => h.conditions_eq

theorem DenoteAll.conditions_eq : ∀ {cs : List Clause} {es : List Expr}, DenoteAll cs es →
    (draftsOfAll cs).map Draft.condition = (Expr.conditionsOfAll es).map .ok
  | _, _, .nil => rfl
  | _, _, .cons h hs => by
    rw [draftsOfAll, Expr.conditionsOfAll, List.map_append, List.map_append, h.conditions_eq,
      hs.conditions_eq]

end

/-- Each condition of what a clause denotes comes from a draft of the clause. -/
theorem Denotes.exists_draft {clause : Clause} {e : Expr} (h : clause.Denotes e) {c : Condition}
    (hc : c ∈ e.conditions) : ∃ d ∈ clause.drafts, d.condition = .ok c := by
  have hmem : Except.ok c ∈ clause.drafts.map Draft.condition := by
    rw [h.conditions_eq]
    exact List.mem_map_of_mem hc
  exact List.mem_map.1 hmem

/-- What a clause denotes is in conditions that the language has, if the operands of its drafts can
be written. -/
theorem Denotes.isWritable {clause : Clause} {e : Expr} (h : clause.Denotes e)
    (hvalues : ∀ d ∈ clause.drafts, ∀ v ∈ d.value, v.IsWritable) :
    ∀ c ∈ e.conditions, c.IsWritable := by
  intro c hc
  obtain ⟨d, hd, hcondition⟩ := h.exists_draft hc
  exact Draft.isWritable_of_condition hcondition (hvalues d hd)

theorem DenoteAll.length_eq {cs : List Clause} {es : List Expr} : DenoteAll cs es →
    cs.length = es.length
  | .nil => rfl
  | .cons _ hs => by rw [List.length_cons, List.length_cons, hs.length_eq]

mutual

/-- The groups of what a clause denotes are its own, with as many members, and joined by `and`
where no join is fixed. -/
theorem Denotes.groups_eq : ∀ {c : Clause} {e : Expr}, c.Denotes e →
    c.groups.map (fun g => (g.1.getD .and, g.2.length)) =
      e.groups.map fun g => (g.1, g.2.length)
  | _, _, .draft _ => rfl
  | _, _, .nested h => by
    rw [groups, Expr.groups, List.map_cons, List.map_cons, h.groups_eq, h.length_eq]

theorem DenoteAll.groups_eq : ∀ {cs : List Clause} {es : List Expr}, DenoteAll cs es →
    (groupsOfAll cs).map (fun g => (g.1.getD .and, g.2.length)) =
      (Expr.groupsOfAll es).map fun g => (g.1, g.2.length)
  | _, _, .nil => rfl
  | _, _, .cons h hs => by
    rw [groupsOfAll, Expr.groupsOfAll, List.map_append, List.map_append, h.groups_eq,
      hs.groups_eq]

end

/-- What holds of the joins and the numbers of members of all groups, holds of those of what the
clause denotes, where a join that is not fixed counts as `and`. -/
theorem Denotes.forall_groups_iff {clause : Clause} {e : Expr} (h : clause.Denotes e)
    (p : Join → Nat → Prop) : (∀ g ∈ e.groups, p g.1 g.2.length) ↔
      ∀ g ∈ clause.groups, p (g.1.getD .and) g.2.length := by
  have hshape : (∀ x ∈ clause.groups.map fun g => (g.1.getD .and, g.2.length), p x.1 x.2) ↔
      ∀ x ∈ e.groups.map fun g => (g.1, g.2.length), p x.1 x.2 := by rw [h.groups_eq]
  rw [List.forall_mem_map, List.forall_mem_map] at hshape
  exact hshape.symm

/-- The groups of what a clause denotes have members exactly if its own have clauses. -/
theorem Denotes.children_ne_nil_iff {clause : Clause} {e : Expr} (h : clause.Denotes e) :
    (∀ g ∈ e.groups, g.2 ≠ []) ↔ ∀ g ∈ clause.groups, g.2 ≠ [] := by
  have hlengths := h.forall_groups_iff fun _ length => length ≠ 0
  simpa only [ne_eq, List.length_eq_zero_iff] using hlengths

end Clause

end RecordFilter
