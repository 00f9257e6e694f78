import RecordFilter.Literal
import RecordFilter.Operator

/-!
# Query primitives

The queries on a single field, and the table that chooses one for an operator and a kind of
operand. Negating operators are not in the table: a condition with one is the negation of the
condition with the operator that it negates. Each query is reported as an `Event` when it is made.
-/

namespace RecordFilter

/-- A bound of a range query. -/
inductive Bound where
  | less
  | atMost
  | greater
  | atLeast
deriving DecidableEq, Repr

/-- The key of a bound in range queries. -/
def Bound.key : Bound → String
  | less => "lt"
  | atMost => "lte"
  | greater => "gt"
  | atLeast => "gte"

/-- A kind of query on a single field. -/
inductive Primitive where
  /-- The field has exactly this value. -/
  | term
  /-- The field lies on one side of the value. -/
  | range (bound : Bound)
  /-- The field is there. -/
  | present
  /-- The field matches the value in full-text search. -/
  | contains
deriving DecidableEq, Repr

/-- A query on a single field. -/
inductive Leaf where
  | term (field : String) (value : Literal)
  | range (field : String) (bound : Bound) (value : Literal)
  | present (field : String)
  | contains (field : String) (value : Literal)
deriving DecidableEq

/-- The primitive for an operator and a kind of operand, if the pair is supported. -/
def defaultDispatch : Operator → OperandKind → Option Primitive
  | .is, .boolean => some .term
  | .equal, .boolean | .equal, .number | .equal, .string | .equal, .date => some .term
  | .less, .number | .less, .date => some (.range .less)
  | .atMost, .number | .atMost, .date => some (.range .atMost)
  | .greater, .number | .greater, .date => some (.range .greater)
  | .atLeast, .number | .atLeast, .date => some (.range .atLeast)
  | .present, .absent => some .present
  | .contains, .string | .contains, .date => some .contains
  | _, _ => none

/-- The query that a primitive makes on a property, if the primitive fits the presence of a
value. A term query may be on another field than the one named for the property. -/
def Primitive.leaf? (p : Primitive) (property termField : String) (value : Option Literal) :
    Option Leaf :=
  match p, value with
  | term, some v => some (.term termField v)
  | range bound, some v => some (.range property bound v)
  | contains, some v => some (.contains property v)
  | present, none => some (.present property)
  | _, _ => none

/-- The name of a kind of query in events. -/
def Primitive.name : Primitive → String
  | term => "term query"
  | range _ => "range query"
  | present => "exists query"
  | contains => "match query"

/-- The bound of a kind of query, if it has one. -/
def Primitive.bound? : Primitive → Option Bound
  | range bound => some bound
  | _ => none

/-! ### Queries and their events -/

namespace Leaf

/-- The kind of a query. -/
def primitive : Leaf → Primitive
  | term .. => .term
  | range _ bound _ => .range bound
  | present _ => .present
  | contains .. => .contains

/-- The name of a query in events. -/
def name (l : Leaf) : String := l.primitive.name

/-- The field of a query. -/
def field : Leaf → String
  | term field _ | range field _ _ | present field | contains field _ => field

/-- The bound of a query, if it has one. -/
def bound? (l : Leaf) : Option Bound := l.primitive.bound?

/-- The value of a query, if it has one. -/
def value? : Leaf → Option Literal
  | term _ value | range _ _ value | contains _ value => some value
  | present _ => none

end Leaf

/-- What is reported of a query when it is made: the name of its kind, its field, and what it has
of a bound and a value, the bound by its key and the value by its text. -/
structure Event where
  name : String
  field : String
  bound? : Option String
  value? : Option String
deriving DecidableEq, Repr

/-- The event of a query. -/
def Leaf.event (l : Leaf) : Event :=
  ⟨l.name, l.field, l.bound?.map Bound.key, l.value?.map Literal.text⟩

end RecordFilter
