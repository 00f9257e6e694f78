import RecordFilter.Literal
import RecordFilter.Operator

/-!
# Tokens

The words of the filter language and the lexemes of a text: tokens with the places, in bytes,
where they start and stop.
-/

namespace RecordFilter

/-- A word of the filter language. -/
inductive Token where
  /-- A quoted text: a property or an operand. -/
  | string (s : String)
  | number (n : Number)
  | boolean (b : Bool)
  | operator (op : Operator)
  | join (j : Join)
  | opening
  | closing
  /-- A bare word that means nothing; no expression has one. -/
  | word (w : String)
deriving DecidableEq

/-- A token as messages name it. -/
def Token.describe : Token → String
  | string s => "string " ++ Text.quote s
  | number n => "number " ++ n.text
  | boolean b => if b then "boolean true" else "boolean false"
  | operator op => "operator `" ++ op.symbol ++ "`"
  | join j => "`" ++ j.word ++ "`"
  | opening => "`(`"
  | closing => "`)`"
  | word w => "`" ++ w ++ "`"

/-- What was found at a place, as messages name it: a token, or the end of the input. -/
def Token.describeFound : Option Token → String
  | none => "end of input"
  | some t => t.describe

/-- A token and the byte offsets between which it stands in a text. -/
structure Lexeme where
  token : Token
  start : Nat
  stop : Nat
deriving DecidableEq

end RecordFilter
