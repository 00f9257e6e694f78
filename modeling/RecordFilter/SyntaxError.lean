import RecordFilter.Token
import RecordFilter.Text.Place

/-!
# Syntax errors

Why a text is not a filter expression, and where. The place of an error is the first character
that no token matches, the first token that no expression can have there, or the end of the
text.
-/

namespace RecordFilter

/-- Why a text is not a filter expression. Faults hold what was found at their place, where
nothing stands for the end of the text. -/
inductive Fault where
  /-- A quote starts no quoted text. -/
  | invalidString
  /-- A minus sign or a digit starts no number. -/
  | invalidNumber
  /-- A character starts no token. -/
  | unexpectedCharacter (c : Char)
  /-- A property or an opening parenthesis had to follow. -/
  | missingTerm (found : Option Token)
  /-- The name of a property is empty. -/
  | emptyProperty
  /-- An operator had to follow the property. -/
  | missingOperator (property : String) (found : Option Token)
  /-- An operand had to follow the operator. -/
  | missingValue (op : Operator) (found : Option Token)
  /-- An operand follows an operator that takes none. -/
  | superfluousValue (op : Operator)
  /-- A join follows the other one in the same group. -/
  | mixedJoins (found current : Join)
  /-- A parenthesis opens inside the greatest allowed number of parentheses. -/
  | tooDeep
  /-- A closing parenthesis had to follow. -/
  | missingClosing (found : Option Token)
  /-- The text had to end. -/
  | missingEnd (found : Option Token)
deriving DecidableEq

/-- The greatest number of parentheses that may be open at once, and of groups that may enclose
a group. -/
def nestingLimit : Nat := 256

/-- The description of a fault. -/
def Fault.message : Fault → String
  | invalidString => "Unterminated or invalid string literal"
  | invalidNumber => "Invalid number literal"
  | unexpectedCharacter c => "Unexpected character '" ++ c.toString ++ "'"
  | missingTerm found => "Expected a quoted property or `(`, got " ++ Token.describeFound found
  | emptyProperty => "Property name cannot be empty"
  | missingOperator property found =>
    "Expected an operator after \"" ++ property ++ "\", got " ++ Token.describeFound found
  | missingValue op found =>
    "Operator `" ++ op.symbol ++ "` requires a value, got " ++ Token.describeFound found
  | superfluousValue op => "Operator `" ++ op.symbol ++ "` does not take a value"
  | mixedJoins found current =>
    "Cannot mix `" ++ found.word ++ "` with `" ++ current.word ++
      "` in one group; wrap the sub-expression in parentheses"
  | tooDeep => "Expression nested too deeply (limit " ++ nestingLimit.repr ++ ")"
  | missingClosing found => "Expected `)`, got " ++ Token.describeFound found
  | missingEnd found => "Expected end of input, got " ++ Token.describeFound found

/-- A fault and its place in the text. -/
structure SyntaxError where
  fault : Fault
  place : Text.Place
deriving DecidableEq

namespace SyntaxError

/-- A fault at a byte offset of a text. -/
def ofOffset (text : String) (offset : Nat) (fault : Fault) : SyntaxError :=
  ⟨fault, Text.locate text offset⟩

/-- The description of an error with its line and its column. -/
def message (e : SyntaxError) : String :=
  e.fault.message ++ " at line " ++ e.place.line.repr ++ ", column " ++ e.place.column.repr

end SyntaxError

end RecordFilter
