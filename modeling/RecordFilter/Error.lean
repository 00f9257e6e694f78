import RecordFilter.SyntaxError
import RecordFilter.Expr

/-!
# Errors

Why a filter is not read, not built or not compiled, and the texts that say so.
-/

namespace RecordFilter

/-- Why an expression has no query. -/
inductive CompileFault where
  /-- More groups than the nesting limit enclose a group. -/
  | tooDeep
  /-- A group has no members. -/
  | emptyGroup (join : Join)
  /-- The name of a property is empty. -/
  | emptyProperty
  /-- The backend has no query for an operator with this kind of operand. -/
  | unsupported (op : Operator) (kind : OperandKind) (property : String)
deriving DecidableEq

/-- The description of a fault. -/
def CompileFault.message : CompileFault → String
  | tooDeep => "expression nested deeper than " ++ nestingLimit.repr ++ " groups"
  | emptyGroup join => "cannot compile an empty `" ++ join.word ++ "` group"
  | emptyProperty => "condition has an empty property name"
  | unsupported op kind property =>
    "unsupported condition: operator `" ++ op.symbol ++ "` with " ++ kind.name ++ " on \"" ++
      property ++ "\""

/-- What a condition that is being built lacks. -/
inductive Gap where
  | property
  | operator (property : String)
  | value (op : Operator) (property : String)
deriving DecidableEq

/-- The description of a gap. -/
def Gap.message : Gap → String
  | property => "no property set"
  | operator name => "no operator set for \"" ++ name ++ "\""
  | value op name => "operator `" ++ op.symbol ++ "` on \"" ++ name ++ "\" has no value"

/-- Why a filter is not read, not built or not compiled. -/
inductive Error where
  /-- There is no text, or it is blank. -/
  | emptyExpression
  /-- The text is not a filter expression. -/
  | malformed (e : SyntaxError)
  /-- No operator has this alias. -/
  | unknownAlias (alias_ : String)
  /-- A clause is added under one join to clauses that stand under the other one. -/
  | mixedJoins (current attempted : Join)
  /-- A condition is not complete. -/
  | incomplete (gap : Gap)
  /-- The expression has no query. -/
  | uncompilable (fault : CompileFault)
deriving DecidableEq

/-- The description of an error. -/
def Error.message : Error → String
  | emptyExpression => "Expression cannot be empty!"
  | malformed e => "Syntax error: " ++ e.message
  | unknownAlias alias_ => "Invalid operator '" ++ alias_ ++ "'!"
  | mixedJoins current attempted =>
    "Illegal operation! Join types cannot be mixed: `" ++ attempted.word ++
      "` on a where already joined by `" ++ current.word ++ "`; nest a new Where instead"
  | incomplete gap => "Incomplete condition: " ++ gap.message
  | uncompilable fault => "Compilation error: " ++ fault.message

/-- The descriptions of an error and of the errors that caused it, from the outermost on. -/
def Error.causes (e : Error) : List String :=
  match e with
  | malformed inner => [e.message, inner.message]
  | _ => [e.message]

end RecordFilter
