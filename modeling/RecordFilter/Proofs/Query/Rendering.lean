import RecordFilter.CommandLine
import RecordFilter.Proofs.Compiler.TextOutcome
import RecordFilter.Proofs.Query.Encoding

/-!
# Renderings of a query

Some texts of a query are written from its parts in the order in which it has them, and others from
its JSON value with sorted members. All that sorting moves is a list of clauses that must not hold, in
front of one of which some should. So the two are the same exactly for the trees in which no boolean
query has both (`Query.sorted_toJson_eq_self_iff`). Compiled queries are regular, so they are such
trees, and all their renderings agree (`Compiler.renderings_agree`).
-/

namespace RecordFilter

namespace Query

/-! ### Sorted members -/

theorem sorted_leaf (l : Leaf) : l.toJson.sorted = l.toJson := by
  have hvalue (v : Literal) : v.toQueryJson.sorted = v.toQueryJson := by
    cases v with
    | nonFinite x => cases hx : Number.ofBinary64? x <;> simp [Literal.toQueryJson, hx, Json.sorted]
    | boolean _ | number _ | string _ | date _ => rfl
  cases l <;>
    simp [Leaf.toJson, Json.sorted, Json.sortedMembers, Json.insertMember, hvalue]

theorem toJsonAll_eq_nil_iff {qs : List Query} : toJsonAll qs = [] ↔ qs = [] := by
  cases qs <;> simp [toJsonAll]

theorem insertMember_of_lt (name name' : String) (h : name < name') (v v' : Json)
    (members : List (String × Json)) :
    Json.insertMember name v ((name', v') :: members) = (name, v) :: (name', v') :: members :=
  if_pos h

theorem insertMember_of_gt (name name' : String) (h : ¬name < name' ∧ name ≠ name') (v v' : Json)
    (members : List (String × Json)) : Json.insertMember name v ((name', v') :: members) =
      (name', v') :: Json.insertMember name v members := by
  rw [Json.insertMember, if_neg h.1, if_neg h.2]

/-- Sorting puts the clauses that must not hold in front of those of which some should. -/
theorem sortedMembers_members (must should mustNot : List Json) :
    Json.sortedMembers []
        (member "must" must ++ member "should" should ++ member "must_not" mustNot) =
      member "must" (Json.sortedElements must) ++ member "must_not" (Json.sortedElements mustNot) ++
        member "should" (Json.sortedElements should) := by
  have hshould := insertMember_of_gt "should" "must" (by decide)
  have hmustNot := insertMember_of_gt "must_not" "must" (by decide)
  have hbetween := insertMember_of_lt "must_not" "should" (by decide)
  cases must <;> cases should <;> cases mustNot <;>
    simp [member, Json.sortedMembers, Json.insertMember.eq_1, Json.sorted, Json.sortedElements,
      hshould, hmustNot, hbetween]

theorem lists_sorted (must should mustNot : List Json) :
    Lists (member "must" must ++ member "must_not" mustNot ++ member "should" should)
      must should mustNot := by
  simp [Lists, List.lookup_append, lookup_member_ne]

/-- Two members change places exactly if both are there. -/
theorem member_append_comm_iff {name name' : String} (h : name ≠ name') {vs vs' : List Json} :
    member name' vs' ++ member name vs = member name vs ++ member name' vs' ↔ vs = [] ∨ vs' = [] := by
  cases vs <;> cases vs' <;> simp [member, h, h.symm]

/-- The members of a boolean query are sorted if what they hold is, and if the lists that would change
places are not both there. -/
theorem sortedMembers_eq_self_iff {must should mustNot : List Json} :
    Json.sortedMembers []
        (member "must" must ++ member "should" should ++ member "must_not" mustNot) =
      member "must" must ++ member "should" should ++ member "must_not" mustNot ↔
    (should = [] ∨ mustNot = []) ∧ Json.sortedElements must = must ∧
      Json.sortedElements should = should ∧ Json.sortedElements mustNot = mustNot := by
  rw [sortedMembers_members]
  constructor
  · intro h
    have hlists := lists_sorted (Json.sortedElements must) (Json.sortedElements should)
      (Json.sortedElements mustNot)
    rw [h] at hlists
    obtain ⟨hmust, hshould, hmustNot⟩ := hlists.unique (lists_members must should mustNot)
    rw [hmust, hshould, hmustNot, List.append_assoc, List.append_assoc, List.append_cancel_left_eq]
      at h
    exact ⟨(member_append_comm_iff (by decide)).1 h, hmust, hshould, hmustNot⟩
  · rintro ⟨hempty, hmust, hshould, hmustNot⟩
    rw [hmust, hshould, hmustNot, List.append_assoc, List.append_assoc,
      (member_append_comm_iff (by decide)).2 hempty]

mutual

/-- **Where sorting changes nothing**: exactly in the trees in which no boolean query has both clauses
of which some should hold and clauses that must not. -/
theorem sorted_toJson_eq_self_iff : ∀ q : Query,
    q.toJson.sorted = q.toJson ↔ ∀ n ∈ q.nodes, n.2.1 = [] ∨ n.2.2 = []
  | .leaf l => by simp [toJson, sorted_leaf, nodes]
  | .bool must should mustNot => by
    have hobject (members : List (String × Json)) :
        (Json.object [("bool", .object members)]).sorted = .object [("bool", .object members)] ↔
          Json.sortedMembers [] members = members := by
      simp [Json.sorted, Json.sortedMembers, Json.insertMember]
    rw [toJson, hobject, sortedMembers_eq_self_iff, sortedElements_toJsonAll_eq_self_iff must,
      sortedElements_toJsonAll_eq_self_iff should, sortedElements_toJsonAll_eq_self_iff mustNot,
      toJsonAll_eq_nil_iff, toJsonAll_eq_nil_iff, nodes, List.forall_mem_cons,
      List.forall_mem_append, List.forall_mem_append, and_assoc]

theorem sortedElements_toJsonAll_eq_self_iff : ∀ qs : List Query,
    Json.sortedElements (toJsonAll qs) = toJsonAll qs ↔
      ∀ n ∈ nodesOfAll qs, n.2.1 = [] ∨ n.2.2 = []
  | [] => by simp [toJsonAll, Json.sortedElements, nodesOfAll]
  | q :: qs => by
    rw [toJsonAll, Json.sortedElements, List.cons.injEq, sorted_toJson_eq_self_iff q,
      sortedElements_toJsonAll_eq_self_iff qs, nodesOfAll, List.forall_mem_append]

end

/-- A boolean query with both lists has another text when its members are sorted. -/
example : (Query.bool [] [.leaf (.present "a")] [.leaf (.present "b")]).toJson.compact ≠
    (Query.bool [] [.leaf (.present "a")] [.leaf (.present "b")]).toJson.sorted.compact := by
  decide

/-- Regular queries are written alike in both orders. -/
theorem IsRegular.sorted_toJson {q : Query} (h : q.IsRegular) : q.toJson.sorted = q.toJson := by
  refine (sorted_toJson_eq_self_iff q).2 fun n hn => ?_
  have hone := h n hn
  by_contra hboth
  obtain ⟨hshould, hmustNot⟩ := not_or.1 hboth
  simp only [List.countP_cons, List.countP_nil, List.isEmpty_eq_false_iff.2 hshould,
    List.isEmpty_eq_false_iff.2 hmustNot, Bool.not_false, if_true] at hone
  omega

end Query

namespace Compiler

open CommandLine (Format)

variable {fields : FieldSet} {s : Source} {q : Query}

theorem isRegular_of_compile {suffix : String}
    (h : (Compiler.elastic suffix).compile fields s = .ok q) : q.IsRegular := by
  unfold compile at h
  split at h
  · simp at h
  · obtain ⟨e, -, he⟩ := exists_parse_of_compileText h
    exact (isRegular_of_compileExpr he).2

/-- The indented text of a source is that of its query. -/
theorem prettyQuery_eq_map (fields : FieldSet) (s : Source) : s.prettyQuery fields =
    ((Compiler.elastic defaultExactSuffix).compile fields s).map fun q =>
      q.toJson.sorted.indented := by
  unfold Source.prettyQuery compile
  split <;> rfl

/-- **All renderings of a compiled query agree.** Its compact text is that of its JSON value with
sorted members, and its indented text is what rendering the source gives. -/
theorem renderings_agree (h : (Compiler.elastic defaultExactSuffix).compile fields s = .ok q) :
    Format.compact.text q = q.toJson.sorted.compact ∧
      s.prettyQuery fields = .ok (Format.indented.text q) := by
  have hsorted := (isRegular_of_compile h).sorted_toJson
  refine ⟨?_, ?_⟩
  · rw [hsorted]
    rfl
  · rw [prettyQuery_eq_map, h, Except.map, hsorted]
    rfl

set_option maxRecDepth 2000 in
/-- A text with both kinds of clauses that sorting would move, one inside the other. -/
theorem renderings_agree_negation : ∃ q,
    (Compiler.elastic defaultExactSuffix).compile .empty
      (.ofText "\"a\" exists or \"b\" != 2") = .ok q ∧
    q = .anyOf [.leaf (.present "a"),
      .not (.leaf (.term "b" (.number (.integer 2 (by decide)))))] ∧
    Format.compact.text q = q.toJson.sorted.compact ∧
    (Source.ofText "\"a\" exists or \"b\" != 2").prettyQuery .empty =
      .ok (Format.indented.text q) := by
  have hlexemes : Token.tokenize "\"a\" exists or \"b\" != 2" = .ok
      [⟨.string "a", 0, 3⟩, ⟨.operator .present, 4, 10⟩, ⟨.join .or, 11, 13⟩, ⟨.string "b", 14, 17⟩,
        ⟨.operator .notEqual, 18, 20⟩, ⟨.number (.integer 2 (by decide)), 21, 22⟩] := rfl
  have hparse : Expr.parse "\"a\" exists or \"b\" != 2" = .ok (.group .or
      [.condition ⟨"a", .present, none⟩,
        .condition ⟨"b", .notEqual, some (.number (.integer 2 (by decide)))⟩]) := by
    rw [Expr.parse, hlexemes]
    rfl
  have hcompile := (compile_eq_compileText (s := .ofText _) (elastic defaultExactSuffix) .empty
    rfl).trans (compileText_of_parse _ hparse)
  exact ⟨_, hcompile, rfl, renderings_agree hcompile⟩

end Compiler

end RecordFilter
