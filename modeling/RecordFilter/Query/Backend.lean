import RecordFilter.Query

/-!
# Query backends

What the compiler needs of a query language: a choice of primitives and a way to put queries
together. Two backends are given: `Backend.elastic` makes query trees, and `Backend.outline`
writes queries as parenthesised words.
-/

namespace RecordFilter

/-- The constructors of a query language. -/
structure Backend (Q : Type) where
  /-- The primitive for an operator that negates none and a kind of operand. -/
  dispatch : Operator → OperandKind → Option Primitive
  /-- A query on a single field. -/
  leaf : Leaf → Q
  /-- A query that holds where all of some queries do. -/
  allOf : List Q → Q
  /-- A query that holds where one of some queries does. -/
  anyOf : List Q → Q
  /-- A query that holds where another one does not. -/
  not : Q → Q

/-- The choice of primitives that follows the first fitting entry of a list, and another choice
where none fits. -/
def overrideDispatch (entries : List (Operator × OperandKind × Option Primitive))
    (dispatch : Operator → OperandKind → Option Primitive) (op : Operator) (kind : OperandKind) :
    Option Primitive :=
  match entries.find? fun entry => entry.1 == op && entry.2.1 == kind with
  | some entry => entry.2.2
  | none => dispatch op kind

/-- A query on a single field as parenthesised words. -/
def Leaf.outline : Leaf → String
  | term field value => "(term " ++ Text.quote field ++ " " ++ value.text ++ ")"
  | range field bound value =>
    "(range " ++ Text.quote field ++ " " ++ bound.key ++ " " ++ value.text ++ ")"
  | present field => "(exists " ++ Text.quote field ++ ")"
  | contains field value => "(contains " ++ Text.quote field ++ " " ++ value.text ++ ")"

/-- A word and some queries behind it, in parentheses. -/
def outlineOf (word : String) (clauses : List String) : String :=
  "(" ++ String.intercalate " " (word :: clauses) ++ ")"

namespace Backend

/-- Makes query trees. -/
def elastic : Backend Query where
  dispatch := defaultDispatch
  leaf := .leaf
  allOf := .allOf
  anyOf := .anyOf
  not := .not

/-- Writes queries as parenthesised words. -/
def outline (entries : List (Operator × OperandKind × Option Primitive)) : Backend String where
  dispatch := overrideDispatch entries defaultDispatch
  leaf := Leaf.outline
  allOf := outlineOf "must"
  anyOf := outlineOf "should"
  not q := outlineOf "must_not" [q]

end Backend

end RecordFilter
