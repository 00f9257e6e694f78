import RecordFilter.Numeral
import RecordFilter.Calendar.Timestamp
import RecordFilter.Text.Quoted
import RecordFilter.Json

/-!
# Literals

The operands of conditions. A text in the form of a date or a timestamp is a date literal and
keeps its spelling (`Literal.ofText`). Numbers that are not finite have a kind of their own,
which no query accepts and which the filter language cannot write.
-/

namespace RecordFilter

/-- An operand of a condition. -/
inductive Literal where
  | boolean (b : Bool)
  | number (n : Number)
  | string (s : String)
  /-- A calendar date or a timestamp, as written. -/
  | date (s : String)
  /-- A NaN or an infinity. -/
  | nonFinite (x : Binary64)
deriving DecidableEq

/-- What a condition has for an operand, as far as the choice of a query depends on it. -/
inductive OperandKind where
  | boolean
  | number
  | string
  | date
  | nonFinite
  /-- The condition has no operand. -/
  | absent
deriving DecidableEq, Repr

/-- The name of a kind of operand in messages. -/
def OperandKind.name : OperandKind → String
  | boolean => "boolean"
  | number => "number"
  | string => "string"
  | date => "date"
  | nonFinite => "non-finite number"
  | absent => "no value"

namespace Literal

/-! ### Construction -/

/-- A text as a literal: a date if it is in the form of one, and a string otherwise. -/
def ofText (text : String) : Literal :=
  if Calendar.isDateLike text then .date text else .string text

/-- An integer as a literal, if it fits 64 bits. -/
def ofInt? (n : Int) : Option Literal := (Number.ofInt? n).map .number

/-- A binary64 number as a literal. -/
def ofBinary64 (x : Binary64) : Literal :=
  match Number.ofBinary64? x with
  | some n => .number n
  | none => .nonFinite x

/-- A calendar date as a literal. -/
def ofDate (d : Calendar.Date) : Literal := .date d.text

/-- A timestamp as a literal: a date in the RFC 3339 form, or a string if that form cannot hold
it. -/
def ofTimestamp (t : Calendar.Timestamp) : Literal :=
  if t.isExpressible then .date t.text else .string t.longText

/-! ### Views -/

/-- The kind of a literal. -/
def kind : Literal → OperandKind
  | boolean _ => .boolean
  | number _ => .number
  | string _ => .string
  | date _ => .date
  | nonFinite _ => .nonFinite

/-- The text of a literal in the filter language. Numbers that are not finite have one that the
language rejects. -/
def text : Literal → String
  | boolean b => if b then "true" else "false"
  | number n => n.text
  | string s | date s => Text.quote s
  | nonFinite x => x.plainText

/-- The JSON value of a literal; `null` for the kind of numbers that are not finite. -/
def toJson : Literal → Json
  | boolean b => .bool b
  | number n => .number n
  | string s | date s => .string s
  | nonFinite _ => .null

/-- The JSON value that queries hold for a literal. It differs from `toJson` only on a finite
number of the kind `nonFinite`, which is written as the number it is. -/
def toQueryJson : Literal → Json
  | nonFinite x =>
    match Number.ofBinary64? x with
    | some n => .number n
    | none => .null
  | literal => literal.toJson

/-- Equality of kinds and values: the two zeros among the floats are equal, and a NaN equals
nothing. -/
def sameValue : Literal → Literal → Bool
  | boolean b, boolean b' => b == b'
  | number n, number n' => n.sameValue n'
  | string s, string s' => s == s'
  | date s, date s' => s == s'
  | nonFinite x, nonFinite x' => x.sameValue x'
  | _, _ => false

end Literal

end RecordFilter
