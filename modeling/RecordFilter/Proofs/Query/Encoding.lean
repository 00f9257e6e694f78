import RecordFilter.Proofs.Compiler.Trace
import RecordFilter.Proofs.Expr.Tokens
import RecordFilter.Proofs.Json.Reading

/-!
# Query texts determine queries

The JSON value of a query says everything about it: each kind of query has its own name, and each
list of clauses that is not empty too, so a list that is missing was empty (`Query.toJson_inj`). Only
operands need a condition: a text and a date of one spelling have the same JSON value, and are told
apart by that spelling if each is of the kind that it has in texts (`Literal.IsWritable`).

Compiled queries have no operands but those of conditions (`Compiler.isWritable_of_compileExpr`),
and compact texts determine JSON values, so they determine compiled queries
(`Compiler.eq_of_compact_eq`). What is reported of a compilation has less in it, since groups and
negations make no events, but it determines the leaves of the query
(`Compiler.leaves_eq_of_events_eq`).
-/

namespace RecordFilter

/-! ### Operands and queries on single fields -/

theorem Literal.toQueryJson_inj {v v' : Literal} (hv : v.IsWritable) (hv' : v'.IsWritable)
    (h : v.toQueryJson = v'.toQueryJson) : v = v' := by
  cases v <;> cases v' <;> simp_all [toQueryJson, toJson, IsWritable]

/-- The text of a literal is read as its token. -/
theorem Literal.text_inj {v v' : Literal} (hv : v.IsWritable) (hv' : v'.IsWritable)
    (h : v.text = v'.text) : v = v' := by
  obtain ⟨lexemes, hlexemes, htokens⟩ := (writes_literal hv).spells.exists_tokenize
  obtain ⟨lexemes', hlexemes', htokens'⟩ := (writes_literal hv').spells.exists_tokenize
  obtain rfl : lexemes = lexemes' := Except.ok.inj (hlexemes.symm.trans (h ▸ hlexemes'))
  have hsame : v.tokens = v'.tokens := htokens.symm.trans htokens'
  cases v <;> cases v' <;> simp_all [tokens, IsWritable]

theorem Literal.IsWritable.isReadBack {v : Literal} (hv : v.IsWritable) :
    ∀ n ∈ v.toQueryJson.numbers, n.IsReadBack := by
  match v, hv with
  | .boolean _, _ | .string _, _ | .date _, _ => simp [toQueryJson, toJson, Json.numbers]
  | .number (.integer n fits), _ =>
    simpa [toQueryJson, toJson, Json.numbers] using Number.isReadBack_integer fits

/-- The operand of the query, if it has one, is read back from its text. -/
def Leaf.IsWritable (l : Leaf) : Prop := ∀ v ∈ l.value?, v.IsWritable

theorem Leaf.toJson_inj {l l' : Leaf} (hl : l.IsWritable) (hl' : l'.IsWritable)
    (h : l.toJson = l'.toJson) : l = l' := by
  cases l with
  | present field => cases l' <;> simp_all [toJson]
  | term field v | contains field v =>
    cases l' <;> simp [toJson] at h ⊢
    exact ⟨h.1, Literal.toQueryJson_inj (hl v rfl) (hl' _ rfl) h.2⟩
  | range field bound v =>
    cases l' <;> simp [toJson] at h ⊢
    exact ⟨h.1, Bound.key_inj h.2.1, Literal.toQueryJson_inj (hl v rfl) (hl' _ rfl) h.2.2⟩

/-- The text of the operand says which operand it is, and so does the event which query. -/
theorem Leaf.event_inj {l l' : Leaf} (hl : l.IsWritable) (hl' : l'.IsWritable)
    (h : l.event = l'.event) : l = l' := by
  obtain ⟨hkind, hfield, htext⟩ := event_eq_iff.1 h
  refine eq_iff.2 ⟨hkind, hfield, ?_⟩
  cases hvalue : l.value? <;> cases hvalue' : l'.value? <;> simp [hvalue, hvalue'] at htext ⊢
  exact Literal.text_inj (hl _ hvalue) (hl' _ hvalue') htext

theorem Leaf.eq_of_map_event_eq {ls ls' : List Leaf} (hls : ∀ l ∈ ls, l.IsWritable)
    (hls' : ∀ l ∈ ls', l.IsWritable) (h : ls.map event = ls'.map event) : ls = ls' := by
  induction ls generalizing ls' with
  | nil => simpa using h.symm
  | cons l ls ih =>
    obtain ⟨l', ls', rfl, hevent, hevents⟩ := List.map_eq_cons_iff.1 h.symm
    obtain ⟨hl, hls⟩ := List.forall_mem_cons.1 hls
    obtain ⟨hl', hls'⟩ := List.forall_mem_cons.1 hls'
    rw [event_inj hl hl' hevent.symm, ih hls hls' hevents.symm]

theorem Leaf.IsWritable.isReadBack {l : Leaf} (hl : l.IsWritable) :
    ∀ n ∈ l.toJson.numbers, n.IsReadBack := by
  cases l with
  | present field => simp [toJson, Json.numbers, Json.numbersOfMembers]
  | term field v | contains field v | range field bound v =>
    simpa [toJson, Json.numbers, Json.numbersOfMembers] using (hl v rfl).isReadBack

/-! ### Query trees -/

namespace Query

/-- The operands in the tree are read back from their texts. -/
def IsWritable (q : Query) : Prop := ∀ l ∈ q.leaves, l.IsWritable

variable {name name' : String} {clauses clauses' : List Json}

theorem lookup_member_self :
    (member name clauses).lookup name = if clauses = [] then none else some (.array clauses) := by
  cases clauses <;> simp [member]

theorem lookup_member_ne (h : name ≠ name') : (member name' clauses).lookup name = none := by
  cases clauses <;> simp [member, h]

/-- A list of clauses is found under its name, and an empty one is not found. -/
theorem clauses_eq_of_lookup (h : (member name clauses).lookup name =
    (member name clauses').lookup name) : clauses = clauses' := by
  rw [lookup_member_self, lookup_member_self] at h
  split_ifs at h with hempty hempty'
  · rw [hempty, hempty']
  · simpa using h

/-- The members of an object have these lists of clauses under their names. -/
def Lists (members : List (String × Json)) (must should mustNot : List Json) : Prop :=
  members.lookup "must" = (member "must" must).lookup "must" ∧
  members.lookup "should" = (member "should" should).lookup "should" ∧
  members.lookup "must_not" = (member "must_not" mustNot).lookup "must_not"

/-- The members of a boolean query say what its lists of clauses are. -/
theorem Lists.unique {members : List (String × Json)}
    {must should mustNot must' should' mustNot' : List Json}
    (h : Lists members must should mustNot) (h' : Lists members must' should' mustNot') :
    must = must' ∧ should = should' ∧ mustNot = mustNot' :=
  ⟨clauses_eq_of_lookup (h.1.symm.trans h'.1), clauses_eq_of_lookup (h.2.1.symm.trans h'.2.1),
    clauses_eq_of_lookup (h.2.2.symm.trans h'.2.2)⟩

theorem lists_members (must should mustNot : List Json) :
    Lists (member "must" must ++ member "should" should ++ member "must_not" mustNot)
      must should mustNot := by
  simp [Lists, List.lookup_append, lookup_member_ne]

mutual

/-- **The JSON value of a query determines it**, if its operands are read back from their texts. -/
theorem toJson_inj : ∀ {q q' : Query}, q.IsWritable → q'.IsWritable → q.toJson = q'.toJson → q = q'
  | .leaf l, .leaf l', hq, hq', h =>
    congrArg leaf (Leaf.toJson_inj (hq l List.mem_cons_self) (hq' l' List.mem_cons_self) h)
  | .leaf l, .bool .., _, _, h => by cases l <;> simp [toJson, Leaf.toJson] at h
  | .bool .., .leaf l, _, _, h => by cases l <;> simp [toJson, Leaf.toJson] at h
  | .bool must should mustNot, .bool must' should' mustNot', hq, hq', h => by
    simp only [IsWritable, leaves, List.forall_mem_append] at hq hq'
    obtain ⟨⟨hmust, hshould⟩, hmustNot⟩ := hq
    obtain ⟨⟨hmust', hshould'⟩, hmustNot'⟩ := hq'
    have hmembers : member "must" (toJsonAll must) ++ member "should" (toJsonAll should) ++
        member "must_not" (toJsonAll mustNot) = member "must" (toJsonAll must') ++
        member "should" (toJsonAll should') ++ member "must_not" (toJsonAll mustNot') := by
      simpa [toJson] using h
    have hlists := lists_members (toJsonAll must') (toJsonAll should') (toJsonAll mustNot')
    rw [← hmembers] at hlists
    obtain ⟨h₁, h₂, h₃⟩ := (lists_members _ _ _).unique hlists
    rw [toJsonAll_inj hmust hmust' h₁, toJsonAll_inj hshould hshould' h₂,
      toJsonAll_inj hmustNot hmustNot' h₃]

theorem toJsonAll_inj : ∀ {qs qs' : List Query}, (∀ l ∈ leavesOfAll qs, l.IsWritable) →
    (∀ l ∈ leavesOfAll qs', l.IsWritable) → toJsonAll qs = toJsonAll qs' → qs = qs'
  | [], [], _, _, _ => rfl
  | [], _ :: _, _, _, h => by simp [toJsonAll] at h
  | _ :: _, [], _, _, h => by simp [toJsonAll] at h
  | q :: qs, q' :: qs', hqs, hqs', h => by
    obtain ⟨hq, hqs⟩ := List.forall_mem_append.1 hqs
    obtain ⟨hq', hqs'⟩ := List.forall_mem_append.1 hqs'
    obtain ⟨hfirst, hothers⟩ := List.cons.inj h
    rw [toJson_inj hq hq' hfirst, toJsonAll_inj hqs hqs' hothers]

end

/-! ### Numbers -/

theorem numbersOfMembers_member (name : String) (clauses : List Json) :
    Json.numbersOfMembers (member name clauses) = Json.numbersOfElements clauses := by
  cases clauses <;> simp [member, Json.numbersOfMembers, Json.numbersOfElements, Json.numbers]

mutual

/-- The numbers in the JSON value of a query are those of its leaves. -/
theorem numbers_toJson : ∀ q : Query,
    q.toJson.numbers = q.leaves.flatMap fun l => l.toJson.numbers
  | .leaf l => by simp [toJson, leaves]
  | .bool must should mustNot => by
    simp only [toJson, leaves, Json.numbers, Json.numbersOfMembers, Json.numbersOfMembers_append,
      numbersOfMembers_member, numbersOfElements_toJsonAll must, numbersOfElements_toJsonAll should,
      numbersOfElements_toJsonAll mustNot, List.flatMap_append, List.append_nil]

theorem numbersOfElements_toJsonAll : ∀ qs : List Query,
    Json.numbersOfElements (toJsonAll qs) = (leavesOfAll qs).flatMap fun l => l.toJson.numbers
  | [] => rfl
  | q :: qs => by
    rw [toJsonAll, Json.numbersOfElements, numbers_toJson q, numbersOfElements_toJsonAll qs,
      leavesOfAll, List.flatMap_append]

end

theorem IsWritable.isReadBack {q : Query} (hq : q.IsWritable) :
    ∀ n ∈ q.toJson.numbers, n.IsReadBack := by
  intro n hn
  rw [numbers_toJson, List.mem_flatMap] at hn
  obtain ⟨l, hl, hn⟩ := hn
  exact (hq l hl).isReadBack n hn

end Query

/-! ### Compiled queries -/

namespace Compiler

variable {suffix suffix' : String} {fields fields' : FieldSet} {e e' : Expr} {q q' : Query}

/-- The leaves of a compiled query are primitive queries of conditions. -/
theorem exists_condition_of_mem_leaves (h : (Compiler.elastic suffix).compileExpr fields e = .ok q)
    {l : Leaf} (hl : l ∈ q.leaves) :
    ∃ c ∈ e.conditions, (Compiler.elastic suffix).leafOf fields c = .ok l := by
  rw [← leaves_of_runExpr h, leaves_runExpr, leavesAmong] at hl
  obtain ⟨c, hc, hleaf⟩ := List.mem_filterMap.1 hl
  have hsublist := (List.takeWhile_sublist (l := e.nodes 0) _).filterMap _ |>.subset hc
  refine ⟨c, ?_, ?_⟩
  · rw [← Expr.conditionsAmong_nodes e 0]
    exact hsublist
  · cases hcase : (Compiler.elastic suffix).leafOf fields c with
    | error fault => simp [hcase, Except.toOption] at hleaf
    | ok l' => simpa [hcase, Except.toOption] using hleaf

/-- Numbers that are not finite are in no query. -/
theorem kind_ne_of_leafOf {c : Condition} {l : Leaf}
    (h : (Compiler.elastic suffix).leafOf fields c = .ok l) : c.kind ≠ .nonFinite := by
  obtain ⟨-, p, hdispatch, -⟩ := leafOf_eq_ok_iff.1 h
  have htable : defaultDispatch c.operator.positive c.kind = some p := hdispatch
  intro hkind
  rw [hkind] at htable
  cases hop : c.operator.positive <;> simp [hop, defaultDispatch] at htable

theorem isWritable_of_compileExpr (h : (Compiler.elastic suffix).compileExpr fields e = .ok q)
    (he : ∀ c ∈ e.conditions, ∀ v ∈ c.value, v.kind = .nonFinite ∨ v.IsWritable) :
    q.IsWritable := by
  intro l hl v hv
  obtain ⟨c, hc, hleaf⟩ := exists_condition_of_mem_leaves h hl
  rw [value?_of_leafOf hleaf] at hv
  refine (he c hc v hv).resolve_left fun hkind => kind_ne_of_leafOf hleaf ?_
  rw [Condition.kind, Option.mem_def.1 hv]
  exact hkind

/-- **Events determine the primitive queries.** Whatever the sets of fields and the suffixes are,
compilations of which the same is reported have made the same primitive queries. What is asked of
the operands is what compact texts need to determine the whole query. -/
theorem leaves_eq_of_events_eq (h : (Compiler.elastic suffix).compileExpr fields e = .ok q)
    (h' : (Compiler.elastic suffix').compileExpr fields' e' = .ok q')
    (he : ∀ c ∈ e.conditions, ∀ v ∈ c.value, v.kind = .nonFinite ∨ v.IsWritable)
    (he' : ∀ c ∈ e'.conditions, ∀ v ∈ c.value, v.kind = .nonFinite ∨ v.IsWritable)
    (hevents : ((Compiler.elastic suffix).runExpr fields e).events =
      ((Compiler.elastic suffix').runExpr fields' e').events) : q.leaves = q'.leaves := by
  have hq := isWritable_of_compileExpr h he
  have hq' := isWritable_of_compileExpr h' he'
  rw [Run.events, leaves_of_runExpr h, Run.events, leaves_of_runExpr h'] at hevents
  exact Leaf.eq_of_map_event_eq hq hq' hevents

/-- **Compact texts determine compiled queries.** Queries compiled with any sets of fields and any
suffixes are the same if their compact texts are, as long as the numbers of both expressions are
integers and every text among their operands is of the kind that its spelling has. -/
theorem eq_of_compact_eq (h : (Compiler.elastic suffix).compileExpr fields e = .ok q)
    (h' : (Compiler.elastic suffix').compileExpr fields' e' = .ok q')
    (he : ∀ c ∈ e.conditions, ∀ v ∈ c.value, v.kind = .nonFinite ∨ v.IsWritable)
    (he' : ∀ c ∈ e'.conditions, ∀ v ∈ c.value, v.kind = .nonFinite ∨ v.IsWritable)
    (htext : q.toJson.compact = q'.toJson.compact) : q = q' := by
  have hq := isWritable_of_compileExpr h he
  have hq' := isWritable_of_compileExpr h' he'
  exact Query.toJson_inj hq hq' (Json.compact_inj hq.isReadBack hq'.isReadBack htext)

/-- One text from two expressions: a subfield that one compilation adds to a property, and the other
is given by its name in the set of exact fields. -/
theorem eq_of_compact_eq_subfield : ∃ q q' : Query,
    (Compiler.elastic "keyword").compileExpr .empty (.group .and
      [.condition ⟨"a", .equal, some (.string "x")⟩,
        .condition ⟨"d", .notEqual, some (.date "2024-02-29")⟩,
        .condition ⟨"n", .less, some (.number (.integer (-3) (by decide)))⟩]) = .ok q ∧
    (Compiler.elastic "raw").compileExpr (FieldSet.empty.insert "a.keyword") (.group .and
      [.condition ⟨"a.keyword", .equal, some (.string "x")⟩,
        .condition ⟨"d", .notEqual, some (.date "2024-02-29")⟩,
        .condition ⟨"n", .less, some (.number (.integer (-3) (by decide)))⟩]) = .ok q' ∧
    q.toJson.compact = q'.toJson.compact ∧ q = q' := by
  have hoperands (property : String) : ∀ c ∈ (Expr.group .and
      [.condition ⟨property, .equal, some (.string "x")⟩,
        .condition ⟨"d", .notEqual, some (.date "2024-02-29")⟩,
        .condition ⟨"n", .less, some (.number (.integer (-3) (by decide)))⟩]).conditions,
      ∀ v ∈ c.value, v.kind = .nonFinite ∨ v.IsWritable := by
    have hstring : Calendar.isDateLike "x" = false := by decide +kernel
    have hdate : Calendar.isDateLike "2024-02-29" = true := by decide +kernel
    simp [Expr.conditions, Expr.conditionsOfAll, hstring, hdate, Literal.IsWritable]
  exact ⟨_, _, rfl, rfl, rfl, eq_of_compact_eq rfl rfl (hoperands "a") (hoperands "a.keyword") rfl⟩

end Compiler

end RecordFilter
