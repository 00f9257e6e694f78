import RecordFilter.Error

/-!
# Conditions under construction

A draft collects the parts of a condition step by step, in any order. `Draft.text` writes what
is there; as long as something is missing that text is no filter expression. `Draft.condition`
is the condition itself, once nothing is missing.
-/

namespace RecordFilter

/-- A condition under construction. -/
structure Draft where
  property : Option String
  operator : Option Operator
  value : Option Literal
deriving DecidableEq

/-- The operator with an alias. Only the operators that compare with a value have one. -/
def Operator.ofAlias? (alias_ : String) : Option Operator :=
  match alias_ with
  | "is" => some .is
  | "eq" => some .equal
  | "ne" => some .notEqual
  | "lt" => some .less
  | "lte" => some .atMost
  | "gt" => some .greater
  | "gte" => some .atLeast
  | _ => none

namespace Draft

/-- Nothing is set. -/
def empty : Draft := ⟨none, none, none⟩

/-- The draft with a property. -/
def setProperty (d : Draft) (property : String) : Draft := { d with property := some property }

/-- The draft with an operator and its operand. -/
def setOperator (d : Draft) (op : Operator) (value : Option Literal) : Draft :=
  { d with operator := some op, value := value }

/-- The draft with the operator that an alias names. -/
def setAlias (d : Draft) (alias_ : String) (value : Literal) : Except Error Draft :=
  match Operator.ofAlias? alias_ with
  | some op => .ok (d.setOperator op (some value))
  | none => .error (.unknownAlias alias_)

/-! ### Steps -/

/-- A step of construction. -/
inductive Step where
  /-- Starts over. -/
  | new
  /-- Starts over with a property. -/
  | newProperty (property : String)
  /-- Starts over with a property and the operator that an alias names. -/
  | newByAlias (property alias_ : String) (value : Literal)
  /-- Sets the property. -/
  | property (property : String)
  /-- Sets the operator that an alias names. -/
  | byAlias (alias_ : String) (value : Literal)
  /-- Sets an operator with its operand. -/
  | relate (op : Operator) (takesValue : op.takesValue = true) (value : Literal)
  /-- Sets the operator for a property that is there. -/
  | present
  /-- Sets the operator for a property that is not there. -/
  | missing

/-- Takes a step. -/
def step (d : Draft) : Step → Except Error Draft
  | .new => .ok empty
  | .newProperty property => .ok (empty.setProperty property)
  | .newByAlias property alias_ value => (empty.setProperty property).setAlias alias_ value
  | .property property => .ok (d.setProperty property)
  | .byAlias alias_ value => d.setAlias alias_ value
  | .relate op _ value => .ok (d.setOperator op (some value))
  | .present => .ok (d.setOperator .present none)
  | .missing => .ok (d.setOperator .missing none)

/-- The draft after some steps. A step that fails leaves it as it was. -/
def run (d : Draft) : List Step → Draft
  | [] => d
  | s :: steps =>
    match d.step s with
    | .ok d' => d'.run steps
    | .error _ => d.run steps

/-! ### Results -/

/-- The text of what is set, with an empty property if there is none. -/
def text (d : Draft) : String :=
  let property := Text.quote (d.property.getD "")
  match d.operator with
  | none => property
  | some op =>
    let head := property ++ " " ++ op.symbol
    if op.takesValue then
      match d.value with
      | some value => head ++ " " ++ value.text
      | none => head
    else head

/-- The condition, or the first thing that it lacks. -/
def condition (d : Draft) : Except Gap Condition :=
  match d.property with
  | none | some "" => .error .property
  | some property =>
    match d.operator with
    | none => .error (.operator property)
    | some op =>
      if op.takesValue then
        match d.value with
        | some value => .ok ⟨property, op, some value⟩
        | none => .error (.value op property)
      else .ok ⟨property, op, none⟩

/-- Whether two drafts have the same parts, literals being compared by value. -/
def sameValue (d d' : Draft) : Bool :=
  d.property == d'.property && d.operator == d'.operator &&
    match d.value, d'.value with
    | none, none => true
    | some v, some v' => v.sameValue v'
    | _, _ => false

end Draft

end RecordFilter
