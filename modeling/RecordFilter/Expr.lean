import RecordFilter.Literal
import RecordFilter.Operator

/-!
# Filter expressions

A filter expression is a condition on a property or a group of expressions under one join.
`Expr.text` writes it in the filter language: every group in parentheses, properties and texts
quoted, and numbers as JSON has them.
-/

namespace RecordFilter

/-- A condition on a property: `"passenger_count" > 81`. -/
structure Condition where
  property : String
  operator : Operator
  value : Option Literal
deriving DecidableEq

/-- A filter expression. -/
inductive Expr where
  | condition (c : Condition)
  | group (join : Join) (children : List Expr)

/-- The kind of a condition's operand. -/
def Condition.kind (c : Condition) : OperandKind :=
  match c.value with
  | none => .absent
  | some value => value.kind

/-- The text of a condition in the filter language. -/
def Condition.text (c : Condition) : String :=
  let head := Text.quote c.property ++ " " ++ c.operator.symbol
  match c.value with
  | none => head
  | some value => head ++ " " ++ value.text

namespace Expr

mutual

/-- The text of an expression in the filter language. -/
def text : Expr → String
  | condition c => c.text
  | group join children =>
    "(" ++ String.intercalate (" " ++ join.word ++ " ") (texts children) ++ ")"

/-- The texts of some expressions. -/
def texts : List Expr → List String
  | [] => []
  | e :: es => e.text :: texts es

end

mutual

/-- The conditions of an expression from left to right. -/
def conditions : Expr → List Condition
  | condition c => [c]
  | group _ children => conditionsOfAll children

/-- The conditions of some expressions from left to right. -/
def conditionsOfAll : List Expr → List Condition
  | [] => []
  | e :: es => e.conditions ++ conditionsOfAll es

end

/-- An expression inside a number of groups with that expression as their only member. -/
def wrapped (join : Join) (e : Expr) : Nat → Expr
  | 0 => e
  | n + 1 => .group join [wrapped join e n]

mutual

/-- Whether two expressions are the same. -/
def decEq : (e e' : Expr) → Decidable (e = e')
  | condition c, condition c' =>
    if h : c = c' then isTrue (by rw [h]) else isFalse (by simpa using h)
  | condition _, group _ _ => isFalse (by simp)
  | group _ _, condition _ => isFalse (by simp)
  | group join children, group join' children' =>
    if h : join = join' then
      match decEqAll children children' with
      | isTrue h' => isTrue (by rw [h, h'])
      | isFalse h' => isFalse (by simp [h'])
    else isFalse (by simp [h])

/-- Whether two lists of expressions are the same. -/
def decEqAll : (es es' : List Expr) → Decidable (es = es')
  | [], [] => isTrue rfl
  | [], _ :: _ => isFalse (by simp)
  | _ :: _, [] => isFalse (by simp)
  | e :: es, e' :: es' =>
    match decEq e e' with
    | isFalse h => isFalse (by simp [h])
    | isTrue h =>
      match decEqAll es es' with
      | isTrue h' => isTrue (by rw [h, h'])
      | isFalse h' => isFalse (by simp [h'])

end

instance : DecidableEq Expr := decEq

end Expr

end RecordFilter
