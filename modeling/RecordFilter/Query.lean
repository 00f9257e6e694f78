import RecordFilter.Query.Leaf
import RecordFilter.Json

/-!
# Boolean queries

Query trees of a search engine: queries on single fields, and boolean queries with clauses that
must hold, of which some should hold, and that must not hold. A tree is written as JSON; lists
without clauses are left out.
-/

namespace RecordFilter

/-- A query tree. -/
inductive Query where
  | leaf (l : Leaf)
  | bool (must should mustNot : List Query)

/-- The JSON value of a query on a single field. -/
def Leaf.toJson : Leaf → Json
  | term field value => .object [("term", .object [(field, value.toQueryJson)])]
  | range field bound value =>
    .object [("range", .object [(field, .object [(bound.key, value.toQueryJson)])])]
  | present field => .object [("exists", .object [("field", .string field)])]
  | contains field value => .object [("match", .object [(field, value.toQueryJson)])]

namespace Query

/-- A query all of whose clauses must hold. -/
def allOf (clauses : List Query) : Query := .bool clauses [] []

/-- A query of whose clauses some should hold. -/
def anyOf (clauses : List Query) : Query := .bool [] clauses []

/-- A query that holds where another one does not. -/
def not (q : Query) : Query := .bool [] [] [q]

/-- Whether the root of a tree is a boolean query. -/
def isBool : Query → Bool
  | leaf _ => false
  | bool .. => true

/-- The member of a boolean query for one list of clauses, unless that is empty. -/
def member (name : String) (clauses : List Json) : List (String × Json) :=
  if clauses.isEmpty then [] else [(name, .array clauses)]

mutual

/-- The JSON value of a tree. -/
def toJson : Query → Json
  | leaf l => l.toJson
  | bool must should mustNot =>
    .object [("bool", .object (member "must" (toJsonAll must) ++ member "should" (toJsonAll should)
      ++ member "must_not" (toJsonAll mustNot)))]

/-- The JSON values of some trees. -/
def toJsonAll : List Query → List Json
  | [] => []
  | q :: qs => q.toJson :: toJsonAll qs

end

mutual

/-- The queries on single fields in a tree, from left to right. -/
def leaves : Query → List Leaf
  | leaf l => [l]
  | bool must should mustNot => leavesOfAll must ++ leavesOfAll should ++ leavesOfAll mustNot

/-- The queries on single fields in some trees, from left to right. -/
def leavesOfAll : List Query → List Leaf
  | [] => []
  | q :: qs => q.leaves ++ leavesOfAll qs

end

end Query

end RecordFilter
