/-!
# Operators and joins

The words and signs of the filter language that relate a property to an operand, and those that
join expressions. Three operators negate another one; all others stand for themselves.
-/

namespace RecordFilter

/-- An operator of a condition. -/
inductive Operator where
  /-- Is true, or is false. -/
  | is
  | equal
  | notEqual
  | less
  | atMost
  | greater
  | atLeast
  /-- The record has the property. -/
  | present
  /-- The record lacks the property. -/
  | missing
  | contains
  | lacks
deriving DecidableEq, Repr

namespace Operator

/-- The spelling of an operator in the filter language. -/
def symbol : Operator → String
  | is => "is"
  | equal => "=="
  | notEqual => "!="
  | less => "<"
  | atMost => "<="
  | greater => ">"
  | atLeast => ">="
  | present => "exists"
  | missing => "missing"
  | contains => "contain"
  | lacks => "notcontain"

/-- Whether an operand must follow the operator. -/
def takesValue : Operator → Bool
  | present | missing => false
  | _ => true

/-- The operator that a negating operator negates. -/
def negated? : Operator → Option Operator
  | notEqual => some equal
  | lacks => some contains
  | missing => some present
  | _ => none

/-- Whether the operator negates another one. -/
def isNegating (op : Operator) : Bool := op.negated?.isSome

/-- The operator without its negation. -/
def positive (op : Operator) : Operator := op.negated?.getD op

/-- All operators. -/
def all : List Operator :=
  [is, equal, notEqual, less, atMost, greater, atLeast, present, missing, contains, lacks]

/-- A negated operator is not negating itself. -/
theorem isNegating_positive (op : Operator) : op.positive.isNegating = false := by
  cases op <;> rfl

end Operator

/-- The word that joins the members of a group. -/
inductive Join where
  | and
  | or
deriving DecidableEq, Repr

/-- The spelling of a join in the filter language. -/
def Join.word : Join → String
  | and => "and"
  | or => "or"

end RecordFilter
