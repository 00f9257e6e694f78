import RecordFilter.Proofs.Compiler.Outcome

/-!
# Compilations in any query language

The compiler uses a backend for its table and for its constructors, and never looks into a query. So
a map between the queries of two backends that keeps the constructors (`Backend.IsHom`) takes the
compilation with one backend to that with the other one, with the same primitive queries on the way
(`Compiler.runExpr_of_isHom`). Such a map has to respect lists of clauses only if they are not
empty, and the two tables have to agree only where the operator negates none, since nothing else is
ever asked for.

`Query.outline` is such a map from query trees to texts. It could not be one if empty lists counted:
there is one tree for both, but two texts.
-/

namespace RecordFilter

/-! ### Maps between query languages -/

/-- A map from the queries of one backend to those of another one that keeps what the compiler uses:
the primitives for operators that negate none, the queries on single fields, and the ways to put
queries together. -/
structure Backend.IsHom {Q R : Type} (A : Backend Q) (B : Backend R) (h : Q → R) : Prop where
  dispatch : ∀ op kind, op.isNegating = false → B.dispatch op kind = A.dispatch op kind
  term : ∀ field value, h (A.leaf (.term field value)) = B.leaf (.term field value)
  range : ∀ field bound value,
    h (A.leaf (.range field bound value)) = B.leaf (.range field bound value)
  present : ∀ field, h (A.leaf (.present field)) = B.leaf (.present field)
  contains : ∀ field value, h (A.leaf (.contains field value)) = B.leaf (.contains field value)
  allOf : ∀ qs, qs ≠ [] → h (A.allOf qs) = B.allOf (qs.map h)
  anyOf : ∀ qs, qs ≠ [] → h (A.anyOf qs) = B.anyOf (qs.map h)
  not : ∀ q, h (A.not q) = B.not (h q)

namespace Run

variable {α β γ : Type}

theorem map_map (r : Run α) (f : α → β) (g : β → γ) : (r.map f).map g = r.map fun a => g (f a) := by
  cases hr : r.outcome <;> simp [map, hr, Except.map]

theorem map_congr {r : Run α} {f g : α → β} (h : ∀ a, r.outcome = .ok a → f a = g a) :
    r.map f = r.map g := by
  cases hr : r.outcome with
  | error e => simp [map, hr, Except.map]
  | ok a => simp [map, hr, Except.map, h a hr]

theorem map_andThen (r : Run α) (f : α → Run β) (g : β → γ) :
    (r.andThen f).map g = r.andThen fun a => (f a).map g := by
  cases hr : r.outcome <;> simp [map, andThen, hr, Except.map]

theorem andThen_map (r : Run α) (f : α → β) (g : β → Run γ) :
    (r.map f).andThen g = r.andThen fun a => g (f a) := by
  cases hr : r.outcome <;> simp [map, andThen, hr, Except.map]

end Run

namespace Backend.IsHom

variable {Q R : Type} {A : Backend Q} {B : Backend R} {h : Q → R}

theorem leaf (hom : A.IsHom B h) (l : Leaf) : h (A.leaf l) = B.leaf l := by
  cases l with
  | term field value => exact hom.term field value
  | range field bound value => exact hom.range field bound value
  | present field => exact hom.present field
  | contains field value => exact hom.contains field value

theorem joined (hom : A.IsHom B h) (suffix : String) (join : Join) {qs : List Q} (hne : qs ≠ []) :
    h ((Compiler.mk A suffix).joined join qs) = (Compiler.mk B suffix).joined join (qs.map h) := by
  cases join with
  | and => exact hom.allOf qs hne
  | or => exact hom.anyOf qs hne

/-- The table is asked for operators that negate none, so it gives the same primitive query. -/
theorem leafOf_eq (hom : A.IsHom B h) (suffix : String) (fields : FieldSet) (c : Condition) :
    (Compiler.mk B suffix).leafOf fields c = (Compiler.mk A suffix).leafOf fields c := by
  have htable := hom.dispatch c.operator.positive c.kind c.operator.isNegating_positive
  simp only [Compiler.leafOf, htable]
  rfl

end Backend.IsHom

namespace Compiler

section

variable {Q R : Type} {A : Backend Q} {B : Backend R} {h : Q → R}

theorem runCondition_of_isHom (hom : A.IsHom B h) (suffix : String) (fields : FieldSet)
    (c : Condition) : (Compiler.mk B suffix).runCondition fields c =
      ((Compiler.mk A suffix).runCondition fields c).map h := by
  have hleaf := hom.leafOf_eq suffix fields c
  cases hl : (Compiler.mk A suffix).leafOf fields c with
  | error fault =>
    rw [runCondition, runCondition, hleaf, hl]
    rfl
  | ok l =>
    rw [runCondition, runCondition, hleaf, hl]
    cases hneg : c.operator.isNegating <;>
      simp [Run.make, Run.map, Except.map, hom.not, hom.leaf]

mutual

/-- Inside other groups, the map takes compilations to compilations. -/
theorem runNode_of_isHom (hom : A.IsHom B h) (suffix : String) (fields : FieldSet) :
    ∀ (e : Expr) (depth : Nat), (Compiler.mk B suffix).runNode fields depth e =
      ((Compiler.mk A suffix).runNode fields depth e).map h
  | .condition c, depth => by
    rw [runNode, runNode]
    exact runCondition_of_isHom hom suffix fields c
  | .group join es, depth => by
    have hes := runAll_of_isHom hom suffix fields es (depth + 1)
    rw [runNode, runNode]
    by_cases hdepth : nestingLimit < depth
    · rw [if_pos hdepth, if_pos hdepth]
      rfl
    · rw [if_neg hdepth, if_neg hdepth]
      by_cases hempty : es = []
      · simp [hempty, Run.fail, Run.map, Except.map]
      · rw [if_neg (by simpa using hempty), if_neg (by simpa using hempty), hes, Run.map_map,
          Run.map_map]
        -- the members have queries, so the list of clauses is not empty
        exact Run.map_congr fun qs hqs =>
          (hom.joined suffix join (runAll_ne_nil hempty hqs)).symm

theorem runAll_of_isHom (hom : A.IsHom B h) (suffix : String) (fields : FieldSet) :
    ∀ (es : List Expr) (depth : Nat), (Compiler.mk B suffix).runAll fields depth es =
      ((Compiler.mk A suffix).runAll fields depth es).map (List.map h)
  | [], _ => rfl
  | e :: es, depth => by
    have he := runNode_of_isHom hom suffix fields e depth
    have hes := runAll_of_isHom hom suffix fields es depth
    rw [runAll, runAll, he, hes, Run.andThen_map, Run.map_andThen]
    simp only [Run.map_map, List.map_cons]

end

/-- **The compiler is generic in the backend**: a map that keeps the constructors takes a
compilation with one backend to that with the other one. -/
theorem runExpr_of_isHom (hom : A.IsHom B h) (suffix : String) (fields : FieldSet) (e : Expr) :
    (Compiler.mk B suffix).runExpr fields e =
      ((Compiler.mk A suffix).runExpr fields e).map h := by
  cases e with
  | condition c =>
    rw [runExpr, runExpr, runCondition_of_isHom hom, Run.map_map, Run.map_map]
    refine Run.map_congr fun q _ => ?_
    cases c.operator.isNegating with
    | true => rfl
    | false => exact (hom.allOf [q] (by simp)).symm
  | group join es => exact runNode_of_isHom hom suffix fields (.group join es) 0

theorem compileExpr_of_isHom (hom : A.IsHom B h) (suffix : String) (fields : FieldSet) (e : Expr) :
    (Compiler.mk B suffix).compileExpr fields e =
      ((Compiler.mk A suffix).compileExpr fields e).map h := by
  rw [compileExpr, runExpr_of_isHom hom]
  rfl

end

end Compiler

/-! ### Query trees as texts -/

namespace Query

/-- A list of clauses behind the word that says how they count, unless it is empty. -/
def outlineMember (word : String) (clauses : List String) : List String :=
  if clauses.isEmpty then [] else [outlineOf word clauses]

mutual

/-- A query tree as parenthesised words. -/
def outline : Query → String
  | leaf l => l.outline
  | bool must should mustNot =>
    String.intercalate " " (outlineMember "must" (outlines must) ++
      outlineMember "should" (outlines should) ++ outlineMember "must_not" (outlines mustNot))

/-- Some query trees as parenthesised words. -/
def outlines : List Query → List String
  | [] => []
  | q :: qs => q.outline :: outlines qs

end

theorem outlines_eq_map (qs : List Query) : outlines qs = qs.map outline := by
  induction qs with
  | nil => rfl
  | cons q qs ih => rw [outlines, ih, List.map_cons]

theorem outline_leaf (l : Leaf) : (leaf l).outline = l.outline := by rw [outline]

theorem outline_allOf {qs : List Query} (hne : qs ≠ []) :
    (allOf qs).outline = outlineOf "must" (qs.map outline) := by
  simp [allOf, outline, outlines_eq_map, outlineMember, hne]

theorem outline_anyOf {qs : List Query} (hne : qs ≠ []) :
    (anyOf qs).outline = outlineOf "should" (qs.map outline) := by
  simp [anyOf, outline, outlines_eq_map, outlineMember, hne]

theorem outline_not (q : Query) : q.not.outline = outlineOf "must_not" [q.outline] := by
  simp [not, outline, outlines_eq_map, outlineMember]

end Query

/-- Writing query trees as parenthesised words keeps the constructors. -/
theorem Backend.isHom_outline : Backend.elastic.IsHom (.outline []) Query.outline where
  dispatch _ _ _ := rfl
  term field value := Query.outline_leaf (.term field value)
  range field bound value := Query.outline_leaf (.range field bound value)
  present field := Query.outline_leaf (.present field)
  contains field value := Query.outline_leaf (.contains field value)
  allOf _ hne := Query.outline_allOf hne
  anyOf _ hne := Query.outline_anyOf hne
  not q := Query.outline_not q

/-- A table that differs only at operators that negate another one is as good. -/
theorem Backend.isHom_table {Q : Type} (A : Backend Q)
    (table : Operator → OperandKind → Option Primitive)
    (h : ∀ op kind, op.isNegating = false → table op kind = A.dispatch op kind) :
    A.IsHom { A with dispatch := table } id where
  dispatch := h
  term _ _ := rfl
  range _ _ _ := rfl
  present _ := rfl
  contains _ _ := rfl
  allOf qs _ := by rw [List.map_id, id]
  anyOf qs _ := by rw [List.map_id, id]
  not _ := rfl

/-- **Compiling with one backend or another.** If a map keeps the constructors of a backend, and the
tables agree on operators that negate none, then it takes the query of an expression to its query
with the other backend, and the errors are the same. So the table does not matter at operators that
negate another one, and the texts that the outline backend makes are those of the query trees. -/
theorem Compiler.compileExpr_generic (suffix : String) (fields : FieldSet) (e : Expr) :
    (∀ {Q R : Type} {A : Backend Q} {B : Backend R} {h : Q → R}, A.IsHom B h →
      (Compiler.mk B suffix).compileExpr fields e =
        ((Compiler.mk A suffix).compileExpr fields e).map h) ∧
    (∀ {Q : Type} (A : Backend Q) (table : Operator → OperandKind → Option Primitive),
      (∀ op kind, op.isNegating = false → table op kind = A.dispatch op kind) →
      (Compiler.mk { A with dispatch := table } suffix).compileExpr fields e =
        (Compiler.mk A suffix).compileExpr fields e) ∧
    (Compiler.mk (.outline []) suffix).compileExpr fields e =
      ((Compiler.elastic suffix).compileExpr fields e).map Query.outline := by
  refine ⟨fun hom => compileExpr_of_isHom hom suffix fields e, ?_,
    compileExpr_of_isHom Backend.isHom_outline suffix fields e⟩
  intro Q A table htable
  have hsame := compileExpr_of_isHom (A.isHom_table table htable) suffix fields e
  rw [hsame]
  cases (Compiler.mk A suffix).compileExpr fields e <;> rfl

/-- With other entries for `!=` and `missing` the outline backend writes the same text, that of the
query tree. -/
theorem Compiler.compileExpr_generic_overridden :
    (Compiler.mk (.outline [(.notEqual, .string, none), (.missing, .absent, some .term)])
      "raw").compileExpr .empty (.group .or [.condition ⟨"a", .notEqual, some (.string "x")⟩,
        .group .and [.condition ⟨"b", .missing, none⟩, .condition ⟨"c", .present, none⟩]]) =
      .ok ("(should (must_not (term \"a.raw\" \"x\")) " ++
        "(must (must_not (exists \"b\")) (exists \"c\")))") := by
  have htable : ∀ op kind, op.isNegating = false →
      overrideDispatch [(.notEqual, .string, none), (.missing, .absent, some .term)]
        defaultDispatch op kind = (Backend.outline []).dispatch op kind := by
    intro op kind hop
    cases op with
    | notEqual | missing | lacks => simp [Operator.isNegating, Operator.negated?] at hop
    | is | equal | less | atMost | greater | atLeast | present | contains => rfl
  obtain ⟨-, hsame, houtline⟩ := compileExpr_generic "raw" .empty
    (.group .or [.condition ⟨"a", .notEqual, some (.string "x")⟩,
      .group .and [.condition ⟨"b", .missing, none⟩, .condition ⟨"c", .present, none⟩]])
  exact (hsame (Backend.outline []) _ htable).trans (houtline.trans rfl)

end RecordFilter
