import RecordFilter.Compiler
import RecordFilter.Where

/-!
# Sources of expression texts

What a filter may be given as: something that builds its text, something that merely has a text,
or nothing. The built text counts first. A source without a text, or with a blank one, is an
empty expression.
-/

namespace RecordFilter

/-- A source of an expression text. -/
structure Source where
  /-- The text that a builder gives. -/
  built : Option String
  /-- The text that the source is written as. -/
  written : Option String
deriving DecidableEq

namespace Source

/-- Nothing. -/
def none : Source := ⟨.none, .none⟩

/-- A plain text. -/
def ofText (text : String) : Source := ⟨.none, some text⟩

/-- A condition under construction. -/
def ofDraft (d : Draft) : Source := ⟨some d.text, .none⟩

/-- A group under construction. -/
def ofWhere (w : Where) : Source := ⟨some w.text, .none⟩

/-- The text of a source. -/
def resolve (s : Source) : Except Error String :=
  match s.built.or s.written with
  | .none => .error .emptyExpression
  | some text => if Text.isAllBlank text then .error .emptyExpression else .ok text

end Source

/-- The query of a source. -/
def Compiler.compile {Q : Type} (k : Compiler Q) (fields : FieldSet) (s : Source) :
    Except Error Q :=
  match s.resolve with
  | .error e => .error e
  | .ok text => k.compileText fields text

/-- The indented JSON text of the query of a source, with sorted members. -/
def Source.prettyQuery (fields : FieldSet) (s : Source) : Except Error String :=
  match s.resolve with
  | .error e => .error e
  | .ok text => RecordFilter.prettyQuery fields text

end RecordFilter
