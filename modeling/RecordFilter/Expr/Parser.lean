import RecordFilter.Expr
import RecordFilter.Token.Lexer

/-!
# Reading filter expressions

The grammar, with one join word throughout a group:

* a group is a term, or terms with joins between them;
* a term is a group in parentheses or a condition;
* a condition is a property, an operator, and an operand if the operator takes one.

`Expr.parse` reads a text from left to right, one token at a time. What was read is a stack of
unfinished groups, one for each open parenthesis, and what may follow is a `Parser.Expectation`;
`Parser.step` either takes the next token or refuses it at once. So an error is found at the
first token that no expression can have at its place.
-/

namespace RecordFilter

namespace Parser

/-- A group that is being read. -/
structure Frame where
  /-- The join word of the group, once it has one. -/
  join : Option Join
  /-- The terms read so far, last first. -/
  terms : List Expr

/-- What may come next. -/
inductive Expectation where
  /-- A term. -/
  | term
  /-- An operator for this property. -/
  | operator (property : String)
  /-- An operand for this property and operator. -/
  | value (property : String) (op : Operator)
  /-- A join, a closing parenthesis or the end, behind a term. If that term is a condition
  without an operand, its operator is kept. -/
  | continuation (bare : Option Operator)

/-- What was read of a text. -/
structure State where
  /-- The group that the next term belongs to. -/
  current : Frame
  /-- The groups around it, the innermost first: one for each open parenthesis. -/
  enclosing : List Frame
  expectation : Expectation

/-- Nothing was read. -/
def State.start : State := ⟨⟨none, []⟩, [], .term⟩

/-- The frame with one more term. -/
def Frame.add (f : Frame) (e : Expr) : Frame := ⟨f.join, e :: f.terms⟩

/-- The group that a frame has become when its parenthesis closes. -/
def Frame.close (f : Frame) : Expr := .group (f.join.getD .and) f.terms.reverse

/-- The state behind a condition. -/
def State.addCondition (s : State) (c : Condition) (bare : Option Operator) : State :=
  ⟨s.current.add (.condition c), s.enclosing, .continuation bare⟩

/-- The literal that a token is, if it is one. -/
def operand? : Token → Option Literal
  | .string s => some (.ofText s)
  | .number n => some (.number n)
  | .boolean b => some (.boolean b)
  | _ => none

/-- Takes the next token where a term must follow. -/
def stepTerm (s : State) : Token → Except Fault State
  | .opening =>
    if nestingLimit ≤ s.enclosing.length then .error .tooDeep
    else .ok ⟨⟨none, []⟩, s.current :: s.enclosing, .term⟩
  | .string property =>
    if property = "" then .error .emptyProperty
    else .ok { s with expectation := .operator property }
  | t => .error (.missingTerm t)

/-- Takes the next token where an operator must follow. -/
def stepOperator (s : State) (property : String) : Token → Except Fault State
  | .operator op =>
    if op.takesValue then .ok { s with expectation := .value property op }
    else .ok (s.addCondition ⟨property, op, none⟩ (some op))
  | t => .error (.missingOperator property t)

/-- Takes the next token where an operand must follow. -/
def stepValue (s : State) (property : String) (op : Operator) (t : Token) : Except Fault State :=
  match operand? t with
  | some value => .ok (s.addCondition ⟨property, op, some value⟩ none)
  | none => .error (.missingValue op t)

/-- Takes a join behind a term. -/
def stepJoin (s : State) (j : Join) : Except Fault State :=
  match s.current.join with
  | none => .ok ⟨⟨some j, s.current.terms⟩, s.enclosing, .term⟩
  | some current =>
    if current = j then .ok { s with expectation := .term } else .error (.mixedJoins j current)

/-- Refuses what follows a term and cannot: a token, or the end of the text. -/
def refuse (s : State) (found : Option Token) : Fault :=
  match s.enclosing with
  | [] => .missingEnd found
  | _ :: _ => .missingClosing found

/-- Takes the next token behind a term. -/
def stepContinuation (s : State) (bare : Option Operator) (t : Token) : Except Fault State :=
  match bare, operand? t with
  | some op, some _ => .error (.superfluousValue op)
  | _, _ =>
    match t, s.enclosing with
    | .join j, _ => stepJoin s j
    | .closing, outer :: enclosing =>
      .ok ⟨outer.add s.current.close, enclosing, .continuation none⟩
    | t, _ => .error (refuse s t)

/-- Takes the next token. -/
def step (s : State) (t : Token) : Except Fault State :=
  match s.expectation with
  | .term => stepTerm s t
  | .operator property => stepOperator s property t
  | .value property op => stepValue s property op t
  | .continuation bare => stepContinuation s bare t

/-- The expression that was read when the text ends. A term without a join and without
parentheses stays what it is. -/
def finish (s : State) : Except Fault Expr :=
  match s.expectation with
  | .term => .error (.missingTerm none)
  | .operator property => .error (.missingOperator property none)
  | .value _ op => .error (.missingValue op none)
  | .continuation _ =>
    match s.enclosing, s.current.join, s.current.terms with
    | _ :: _, _, _ => .error (.missingClosing none)
    | [], none, [e] => .ok e
    | [], _, _ => .ok s.current.close

/-- Reads lexemes up to the end of a text, which is at an offset; or the offset and the fault of
the first token that no expression has at its place. -/
def run (s : State) (stop : Nat) : List Lexeme → Except (Nat × Fault) Expr
  | [] => (finish s).mapError fun fault => (stop, fault)
  | lexeme :: lexemes =>
    match step s lexeme.token with
    | .error fault => .error (lexeme.start, fault)
    | .ok s' => run s' stop lexemes

end Parser

/-- The expression that a text denotes. -/
def Expr.parse (text : String) : Except SyntaxError Expr :=
  match Token.tokenize text with
  | .error e => .error e
  | .ok lexemes =>
    match Parser.run .start text.utf8ByteSize lexemes with
    | .error (offset, fault) => .error (.ofOffset text offset fault)
    | .ok e => .ok e

end RecordFilter
