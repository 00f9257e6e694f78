import RecordFilter.Proofs.Where.Paths

/-!
# The two limits of nesting

A group is compiled through its text, where the parser counts open parentheses, or through its
expression, where the compiler counts the groups around a group. Every group has a pair of
parentheses, the outermost one too, but no group is around that one. So the compiler takes groups
that are nested once more than the parser allows, and apart from those the two ways succeed
together (`Where.compilable_paths_agree_iff`).
-/

namespace RecordFilter

/-! ### Nesting -/

namespace Clause

mutual

/-- The greatest number of groups inside each other in a clause. -/
def nesting : Clause → Nat
  | draft _ => 0
  | nested _ clauses => nestingOfAll clauses + 1
  | raw _ => 0

/-- The greatest number of groups inside each other in one of some clauses. -/
def nestingOfAll : List Clause → Nat
  | [] => 0
  | c :: cs => max c.nesting (nestingOfAll cs)

end

mutual

/-- As many groups are inside each other in a clause as in what it denotes. -/
theorem Denotes.height_eq : ∀ {c : Clause} {e : Expr}, c.Denotes e → e.height = c.nesting
  | _, _, .draft _ => rfl
  | _, _, .nested h => by rw [Expr.height, h.height_eq, nesting]

theorem DenoteAll.height_eq : ∀ {cs : List Clause} {es : List Expr}, DenoteAll cs es →
    Expr.heightOfAll es = nestingOfAll cs
  | _, _, .nil => rfl
  | _, _, .cons h hs => by rw [Expr.heightOfAll, h.height_eq, hs.height_eq, nestingOfAll]

end

/-- **What comes back from the text of a clause**: nothing if one of its groups has no clauses or
too many are inside each other, and the canonical form of what it denotes otherwise. -/
theorem Denotes.parse_text_eq_ok_iff {clause : Clause} {e e' : Expr} (h : clause.Denotes e)
    (hwritable : ∀ c ∈ e.conditions, c.IsWritable) :
    Expr.parse clause.text = .ok e' ↔
      (∀ g ∈ clause.groups, g.2 ≠ []) ∧ clause.nesting ≤ nestingLimit ∧ e' = e.canonical := by
  rw [h.text_eq, Expr.parse_text_eq_ok_iff hwritable, h.children_ne_nil_iff, h.height_eq]

end Clause

namespace Where

/-- The greatest number of groups inside each other, with the group itself. -/
def nesting (w : Where) : Nat := w.toClause.nesting

/-- Nothing but the number of groups inside each other stands in the way of a query: there is no
raw text, every group has clauses, and every draft is complete, with an operand that is a boolean,
an integer, a text, a date or a timestamp, and supported. -/
structure IsCompilable (w : Where) : Prop where
  containsRaw_eq : w.containsRaw = false
  clauses_ne_nil : ∀ g ∈ w.toClause.groups, g.2 ≠ []
  drafts_supported : ∀ d ∈ w.toClause.drafts, ∃ c, d.condition = .ok c ∧
    (∀ v ∈ c.value, v.IsAuthored) ∧ c.isSupported = true

namespace IsCompilable

variable {w : Where} {e : Expr} {suffix : String} {fields : FieldSet}

theorem exists_denotes (h : w.IsCompilable) : ∃ e, w.toClause.Denotes e :=
  Clause.exists_denotes _ h.containsRaw_eq fun d hd => by
    obtain ⟨c, hc, -⟩ := h.drafts_supported d hd
    exact ⟨c, hc⟩

/-- Each condition of what the group denotes comes from a draft of it. -/
theorem exists_draft (h : w.IsCompilable) (he : w.toClause.Denotes e) {c : Condition}
    (hc : c ∈ e.conditions) : ∃ d ∈ w.toClause.drafts, d.condition = .ok c ∧
      (∀ v ∈ c.value, v.IsAuthored) ∧ c.isSupported = true := by
  obtain ⟨d, hd, hcondition⟩ := he.exists_draft hc
  obtain ⟨c', hc', hauthored, hsupported⟩ := h.drafts_supported d hd
  obtain rfl := Except.ok.inj (hc'.symm.trans hcondition)
  exact ⟨d, hd, hcondition, hauthored, hsupported⟩

theorem isSupported (h : w.IsCompilable) (he : w.toClause.Denotes e) :
    ∀ c ∈ e.conditions, c.isSupported = true := by
  intro c hc
  obtain ⟨-, -, -, -, hsupported⟩ := h.exists_draft he hc
  exact hsupported

theorem isWritable (h : w.IsCompilable) (he : w.toClause.Denotes e) :
    ∀ c ∈ e.conditions, c.IsWritable := by
  intro c hc
  obtain ⟨d, -, hcondition, hauthored, -⟩ := h.exists_draft he hc
  obtain ⟨hne, -, -, hsome, -⟩ := Draft.condition_eq_ok_iff.1 hcondition
  exact ⟨hne, hsome, fun v hv => (hauthored v hv).isWritable⟩

/-- **Through its text**, the group has a query exactly if the parser reaches its innermost
groups. -/
theorem exists_compile_iff (h : w.IsCompilable) :
    (∃ q, (Compiler.elastic suffix).compile fields (Source.ofWhere w) = .ok q) ↔
      w.nesting ≤ nestingLimit := by
  obtain ⟨e, he⟩ := h.exists_denotes
  rw [Compiler.compile_eq_compileText _ fields (s := .ofWhere w) rfl,
    (Compiler.textOutcome_compileText suffix fields w.text).exists_eq_ok_iff]
  constructor
  · rintro ⟨e', he', -⟩
    exact ((he.parse_text_eq_ok_iff (h.isWritable he)).1 he').2.1
  · intro hnesting
    refine ⟨e.canonical, (he.parse_text_eq_ok_iff (h.isWritable he)).2
      ⟨h.clauses_ne_nil, hnesting, rfl⟩, ?_⟩
    rw [Expr.conditions_canonical]
    exact h.isSupported he

/-- **Through its expression**, the group has a query exactly if the compiler reaches its innermost
groups. -/
theorem exists_compileExpr_iff (h : w.IsCompilable) :
    (∃ e q, w.expr = .ok e ∧ (Compiler.elastic suffix).compileExpr fields e = .ok q) ↔
      w.nesting ≤ nestingLimit + 1 := by
  obtain ⟨e, he⟩ := h.exists_denotes
  have hexpr : w.expr = .ok e := he.expr_eq
  rw [nesting, ← he.height_eq]
  constructor
  · rintro ⟨e', q, he', hq⟩
    obtain rfl := Except.ok.inj (hexpr.symm.trans he')
    exact Compiler.height_le_of_compileExpr hq
  · intro hheight
    have hwellFormed : e.IsWellFormed :=
      ⟨fun c hc => (h.isWritable he c hc).isWellFormed,
        he.children_ne_nil_iff.2 h.clauses_ne_nil, hheight⟩
    obtain ⟨q, hq⟩ := Compiler.exists_compileExpr_eq_ok hwellFormed (h.isSupported he)
    exact ⟨e, q, hexpr, hq⟩

end IsCompilable

/-! ### Groups inside groups -/

theorem nesting_nest (w : Where) (join : Option Join) : (w.nest join).nesting = w.nesting + 1 := by
  simp [nesting, nest, toClause, Clause.nesting, Clause.nestingOfAll]

theorem nesting_nestTimes (w : Where) (join : Option Join) (n : Nat) :
    (w.nestTimes join n).nesting = w.nesting + n := by
  induction n generalizing w with
  | zero => rfl
  | succ n ih => rw [nestTimes, ih, nesting_nest, Nat.add_assoc, Nat.add_comm 1 n]

theorem IsCompilable.nest {w : Where} (h : w.IsCompilable) (join : Option Join) :
    (w.nest join).IsCompilable where
  containsRaw_eq := by
    simpa [containsRaw, Where.nest, toClause, Clause.containsRaw, Clause.containsRawAny] using
      h.containsRaw_eq
  clauses_ne_nil := by
    simpa [Where.nest, toClause, Clause.groups, Clause.groupsOfAll] using h.clauses_ne_nil
  drafts_supported := by
    simpa [Where.nest, toClause, Clause.drafts, Clause.draftsOfAll] using h.drafts_supported

theorem IsCompilable.nestTimes {w : Where} (h : w.IsCompilable) (join : Option Join) (n : Nat) :
    (w.nestTimes join n).IsCompilable := by
  induction n generalizing w with
  | zero => exact h
  | succ n ih => exact ih (h.nest join)

/-! ### The two ways -/

/-- **When the two ways succeed together**: a group in which nothing else is wrong has a query
through its text if it keeps the limit of nesting, and through its expression also if it passes it
by one. -/
theorem compilable_paths_agree_iff {w : Where} (h : w.IsCompilable) (suffix : String)
    (fields : FieldSet) :
    ((∃ q, (Compiler.elastic suffix).compile fields (Source.ofWhere w) = .ok q) ↔
      w.nesting ≤ nestingLimit) ∧
    ((∃ e q, w.expr = .ok e ∧ (Compiler.elastic suffix).compileExpr fields e = .ok q) ↔
      w.nesting ≤ nestingLimit + 1) ∧
    (((∃ q, (Compiler.elastic suffix).compile fields (Source.ofWhere w) = .ok q) ↔
        ∃ e q, w.expr = .ok e ∧ (Compiler.elastic suffix).compileExpr fields e = .ok q) ↔
      w.nesting ≠ nestingLimit + 1) := by
  refine ⟨h.exists_compile_iff, h.exists_compileExpr_iff, ?_⟩
  rw [h.exists_compile_iff, h.exists_compileExpr_iff]
  omega

/-- A condition inside 257 groups: its text opens one parenthesis too many, and its expression has
a query. -/
theorem compilable_paths_agree_iff_boundary : ∃ w : Where,
    w.IsCompilable ∧ w.nesting = 257 ∧
    (¬ ∃ q, (Compiler.elastic "keyword").compile .empty (Source.ofWhere w) = .ok q) ∧
    ∃ e q, w.expr = .ok e ∧ (Compiler.elastic "keyword").compileExpr .empty e = .ok q := by
  let v : Literal := .number (.integer 1 (by decide))
  let w : Where := .starting (.draft ⟨some "a", some .equal, some v⟩)
  have hw : w.IsCompilable := by
    refine ⟨rfl, ?_, ?_⟩
    · simp [w, starting, toClause, Clause.groups, Clause.groupsOfAll]
    · intro d hd
      obtain rfl : d = ⟨some "a", some .equal, some v⟩ := by
        simpa [w, starting, toClause, Clause.drafts, Clause.draftsOfAll] using hd
      exact ⟨⟨"a", .equal, some v⟩, rfl, by simpa using .integer _, rfl⟩
  have hnesting : (w.nestTimes none 256).nesting = 257 := nesting_nestTimes w none 256
  obtain ⟨htext, hexpr, -⟩ :=
    compilable_paths_agree_iff (hw.nestTimes none 256) "keyword" .empty
  refine ⟨w.nestTimes none 256, hw.nestTimes none 256, hnesting, ?_, ?_⟩
  · rw [htext, hnesting]
    decide
  · rw [hexpr, hnesting]
    decide

end Where

end RecordFilter
