import RecordFilter.Error
import RecordFilter.Expr.Parser
import RecordFilter.Fields
import RecordFilter.Query.Backend
import RecordFilter.Text.Blank

/-!
# Compiling filters

Filter expressions become boolean queries. The backend chooses a primitive for each condition;
groups become queries of which all clauses must or some should hold, and conditions with a
negating operator become the negation of the query for the operator that it negates. Equality
with a string is asked of the exact-match subfield unless the field holds exact values already.

A compilation is a `Run`: it keeps the primitive queries in the order in which they are made,
also those made before it fails.
-/

namespace RecordFilter

/-- A compilation: the primitive queries made so far, and its outcome. -/
structure Run (α : Type) where
  leaves : List Leaf
  outcome : Except Error α

namespace Run

/-- The compilation that makes nothing and ends with a value. -/
def done {α : Type} (a : α) : Run α := ⟨[], .ok a⟩

/-- The compilation that makes nothing and fails. -/
def fail {α : Type} (e : Error) : Run α := ⟨[], .error e⟩

/-- The compilation that makes one primitive query. -/
def make {α : Type} (l : Leaf) (a : α) : Run α := ⟨[l], .ok a⟩

/-- A compilation followed by another one that needs its value. -/
def andThen {α β : Type} (r : Run α) (f : α → Run β) : Run β :=
  match r.outcome with
  | .error e => ⟨r.leaves, .error e⟩
  | .ok a => ⟨r.leaves ++ (f a).leaves, (f a).outcome⟩

/-- A compilation with its value changed. -/
def map {α β : Type} (f : α → β) (r : Run α) : Run β := ⟨r.leaves, r.outcome.map f⟩

/-- What is reported of a compilation: the events of the primitive queries in the order in which
they are made. -/
def events {α : Type} (r : Run α) : List Event := r.leaves.map Leaf.event

end Run

/-- The exact-match subfield of a string field unless another one is asked for. -/
def defaultExactSuffix : String := "keyword"

/-- A backend and the name of the exact-match subfields. -/
structure Compiler (Q : Type) where
  backend : Backend Q
  exactSuffix : String := defaultExactSuffix

namespace Compiler

variable {Q : Type}

/-- The field that a term query for a condition asks. -/
def termField (k : Compiler Q) (fields : FieldSet) (c : Condition) : String :=
  if c.operator.positive = .equal ∧ c.kind = .string ∧ fields.contains c.property = false then
    c.property ++ "." ++ k.exactSuffix
  else c.property

/-- The primitive query of a condition, without its negation. -/
def leafOf (k : Compiler Q) (fields : FieldSet) (c : Condition) : Except CompileFault Leaf :=
  if c.property = "" then .error .emptyProperty
  else
    match k.backend.dispatch c.operator.positive c.kind with
    | none => .error (.unsupported c.operator c.kind c.property)
    | some primitive =>
      match primitive.leaf? c.property (k.termField fields c) c.value with
      | none => .error (.unsupported c.operator c.kind c.property)
      | some l => .ok l

/-- Compiles a condition. -/
def runCondition (k : Compiler Q) (fields : FieldSet) (c : Condition) : Run Q :=
  match k.leafOf fields c with
  | .error fault => .fail (.uncompilable fault)
  | .ok l =>
    let query := k.backend.leaf l
    .make l (if c.operator.isNegating then k.backend.not query else query)

/-- The query of a group. -/
def joined (k : Compiler Q) : Join → List Q → Q
  | .and => k.backend.allOf
  | .or => k.backend.anyOf

mutual

/-- Compiles an expression that a number of groups enclose. -/
def runNode (k : Compiler Q) (fields : FieldSet) (depth : Nat) : Expr → Run Q
  | .condition c => k.runCondition fields c
  | .group join children =>
    if nestingLimit < depth then .fail (.uncompilable .tooDeep)
    else if children.isEmpty then .fail (.uncompilable (.emptyGroup join))
    else (runAll k fields (depth + 1) children).map (k.joined join)

/-- Compiles expressions that a number of groups enclose, from left to right. -/
def runAll (k : Compiler Q) (fields : FieldSet) (depth : Nat) : List Expr → Run (List Q)
  | [] => .done []
  | e :: es =>
    (runNode k fields depth e).andThen fun q => (runAll k fields depth es).map (q :: ·)

end

/-- Compiles an expression. A lone condition becomes the only clause of a boolean query, unless
its operator is negating: its query is a boolean one then. -/
def runExpr (k : Compiler Q) (fields : FieldSet) (e : Expr) : Run Q :=
  match e with
  | .condition c =>
    (k.runCondition fields c).map fun q =>
      if c.operator.isNegating then q else k.backend.allOf [q]
  | .group .. => k.runNode fields 0 e

/-- Reads and compiles a text. -/
def runText (k : Compiler Q) (fields : FieldSet) (text : String) : Run Q :=
  if Text.isAllBlank text then .fail .emptyExpression
  else
    match Expr.parse text with
    | .error e => .fail (.malformed e)
    | .ok e => k.runExpr fields e

/-- The query of an expression. -/
def compileExpr (k : Compiler Q) (fields : FieldSet) (e : Expr) : Except Error Q :=
  (k.runExpr fields e).outcome

/-- The query of a text. -/
def compileText (k : Compiler Q) (fields : FieldSet) (text : String) : Except Error Q :=
  (k.runText fields text).outcome

end Compiler

/-- Makes query trees, with a given name for the exact-match subfields. -/
def Compiler.elastic (exactSuffix : String) : Compiler Query := ⟨.elastic, exactSuffix⟩

/-- The indented JSON text of the query of a text, with sorted members. -/
def prettyQuery (fields : FieldSet) (text : String) : Except Error String :=
  ((Compiler.elastic defaultExactSuffix).compileText fields text).map fun q =>
    q.toJson.sorted.indented

end RecordFilter
