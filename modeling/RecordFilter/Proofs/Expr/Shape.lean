import RecordFilter.Expr

/-!
# Groups in expressions

What the text of an expression keeps of its groups. A group with one child is written without a
join word, so its join is lost: `canonical` is what is left of an expression, and
`canonical_eq_self_iff` says which expressions lose nothing.
-/

namespace RecordFilter.Expr

mutual

/-- The groups in an expression, each with its join and its children. -/
def groups : Expr → List (Join × List Expr)
  | condition _ => []
  | group join children => (join, children) :: groupsOfAll children

/-- The groups in some expressions. -/
def groupsOfAll : List Expr → List (Join × List Expr)
  | [] => []
  | e :: es => e.groups ++ groupsOfAll es

end

mutual

/-- The greatest number of groups inside each other. -/
def height : Expr → Nat
  | condition _ => 0
  | group _ children => heightOfAll children + 1

/-- The greatest number of groups inside each other in one of some expressions. -/
def heightOfAll : List Expr → Nat
  | [] => 0
  | e :: es => max e.height (heightOfAll es)

end

theorem conditionsOfAll_append (es es' : List Expr) :
    conditionsOfAll (es ++ es') = conditionsOfAll es ++ conditionsOfAll es' := by
  induction es with
  | nil => rfl
  | cons e es ih => rw [List.cons_append, conditionsOfAll, ih, conditionsOfAll, List.append_assoc]

theorem groupsOfAll_append (es es' : List Expr) :
    groupsOfAll (es ++ es') = groupsOfAll es ++ groupsOfAll es' := by
  induction es with
  | nil => rfl
  | cons e es ih => rw [List.cons_append, groupsOfAll, ih, groupsOfAll, List.append_assoc]

theorem heightOfAll_append (es es' : List Expr) :
    heightOfAll (es ++ es') = max (heightOfAll es) (heightOfAll es') := by
  induction es with
  | nil => simp [heightOfAll]
  | cons e es ih => rw [List.cons_append, heightOfAll, ih, heightOfAll, Nat.max_assoc]

mutual

/-- The expression with `and` for the join of every group with one child. -/
def canonical : Expr → Expr
  | condition c => condition c
  | group join children =>
    group (if children.length = 1 then .and else join) (canonicalAll children)

/-- The expressions with `and` for the join of every group with one child. -/
def canonicalAll : List Expr → List Expr
  | [] => []
  | e :: es => e.canonical :: canonicalAll es

end

theorem length_canonicalAll (es : List Expr) : (canonicalAll es).length = es.length := by
  induction es with
  | nil => rfl
  | cons e es ih => rw [canonicalAll, List.length_cons, ih, List.length_cons]

mutual

theorem conditions_canonical : ∀ e : Expr, e.canonical.conditions = e.conditions
  | condition _ => rfl
  | group _ children => conditionsOfAll_canonicalAll children

theorem conditionsOfAll_canonicalAll : ∀ es : List Expr,
    conditionsOfAll (canonicalAll es) = conditionsOfAll es
  | [] => rfl
  | e :: es => by
    rw [canonicalAll, conditionsOfAll, conditions_canonical e, conditionsOfAll_canonicalAll es,
      conditionsOfAll]

end

mutual

/-- **What the text keeps**: an expression is canonical exactly if all its groups with one child
are joined by `and`. -/
theorem canonical_eq_self_iff : ∀ e : Expr,
    e.canonical = e ↔ ∀ g ∈ e.groups, g.2.length = 1 → g.1 = .and
  | condition c => by simp [canonical, groups]
  | group join children => by
    have hchildren := canonicalAll_eq_self_iff children
    have hjoin : (if children.length = 1 then .and else join) = join ↔
        (children.length = 1 → join = .and) := by
      by_cases hlone : children.length = 1
      · simp [hlone, eq_comm]
      · simp [hlone]
    rw [canonical, group.injEq, hjoin, hchildren]
    simp [groups]

theorem canonicalAll_eq_self_iff : ∀ es : List Expr,
    canonicalAll es = es ↔ ∀ g ∈ groupsOfAll es, g.2.length = 1 → g.1 = .and
  | [] => by simp [canonicalAll, groupsOfAll]
  | e :: es => by
    have he := canonical_eq_self_iff e
    have hes := canonicalAll_eq_self_iff es
    rw [canonicalAll, List.cons.injEq, he, hes]
    simp only [groupsOfAll, List.mem_append, or_imp, forall_and]

end

end RecordFilter.Expr
