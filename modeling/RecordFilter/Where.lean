import RecordFilter.Draft
import RecordFilter.Expr.Parser

/-!
# Groups under construction

A `Where` collects clauses under one join: drafts of conditions, other such groups, and raw
text. The first clause that is added under a join fixes it. `Where.text` writes the group with
raw text spliced in as it is, so that raw text takes part in the grammar of the whole;
`Where.expr` is the expression itself.
-/

namespace RecordFilter

/-- A member of a group under construction. -/
inductive Clause where
  | draft (d : Draft)
  /-- A group with its join, once that is fixed. -/
  | nested (join : Option Join) (clauses : List Clause)
  | raw (text : String)

/-- A group under construction. -/
structure Where where
  /-- The join, once it is fixed. -/
  join : Option Join
  clauses : List Clause

namespace Clause

mutual

/-- The text of a clause. -/
def text : Clause → String
  | draft d => d.text
  | nested join clauses =>
    "(" ++ String.intercalate (" " ++ (join.getD .and).word ++ " ") (texts clauses) ++ ")"
  | raw t => t

/-- The texts of some clauses. -/
def texts : List Clause → List String
  | [] => []
  | c :: cs => c.text :: texts cs

end

mutual

/-- Whether raw text is in a clause. -/
def containsRaw : Clause → Bool
  | draft _ => false
  | nested _ clauses => containsRawAny clauses
  | raw _ => true

/-- Whether raw text is in one of some clauses. -/
def containsRawAny : List Clause → Bool
  | [] => false
  | c :: cs => c.containsRaw || containsRawAny cs

end

mutual

/-- The expression of a clause. A group that holds raw text is read from its text. -/
def expr : Clause → Except Error Expr
  | draft d =>
    match d.condition with
    | .ok c => .ok (.condition c)
    | .error gap => .error (.incomplete gap)
  | raw t => (Expr.parse t).mapError .malformed
  | nested join clauses =>
    if containsRawAny clauses then (Expr.parse (text (nested join clauses))).mapError .malformed
    else (exprs clauses).map (.group (join.getD .and))

/-- The expressions of some clauses, or the first error. -/
def exprs : List Clause → Except Error (List Expr)
  | [] => .ok []
  | c :: cs =>
    match c.expr with
    | .error e => .error e
    | .ok e => (exprs cs).map (e :: ·)

end

mutual

/-- Whether two clauses are the same, literals being compared by value. -/
def sameValue : Clause → Clause → Bool
  | draft d, draft d' => d.sameValue d'
  | nested join clauses, nested join' clauses' => join == join' && sameValues clauses clauses'
  | raw t, raw t' => t == t'
  | _, _ => false

/-- Whether two lists of clauses are the same, literals being compared by value. -/
def sameValues : List Clause → List Clause → Bool
  | [], [] => true
  | c :: cs, c' :: cs' => c.sameValue c' && sameValues cs cs'
  | _, _ => false

end

end Clause

namespace Where

/-- The group without clauses. -/
def empty : Where := ⟨none, []⟩

/-- The group with one clause and no join yet. -/
def starting (c : Clause) : Where := ⟨none, [c]⟩

/-- The group with one more clause under a join. -/
def add (w : Where) (join : Join) (c : Clause) : Except Error Where :=
  match w.join with
  | none => .ok ⟨some join, w.clauses ++ [c]⟩
  | some current =>
    if current = join then .ok ⟨some join, w.clauses ++ [c]⟩
    else .error (.mixedJoins current join)

/-- The group after some clauses were added. An addition that fails leaves it as it was. -/
def run (w : Where) : List (Join × Clause) → Where
  | [] => w
  | (join, c) :: calls =>
    match w.add join c with
    | .ok w' => w'.run calls
    | .error _ => w.run calls

/-- The group as a clause of another one. -/
def toClause (w : Where) : Clause := .nested w.join w.clauses

/-- The group as the only clause of a new group, under a join if one is given. -/
def nest (w : Where) (join : Option Join) : Where := ⟨join, [w.toClause]⟩

/-- The group inside a number of groups with one clause each. -/
def nestTimes (w : Where) (join : Option Join) : Nat → Where
  | 0 => w
  | n + 1 => (w.nest join).nestTimes join n

/-- The text of the group, in parentheses. -/
def text (w : Where) : String := w.toClause.text

/-- Whether raw text is in the group or in one inside it. -/
def containsRaw (w : Where) : Bool := w.toClause.containsRaw

/-- The expression of the group. -/
def expr (w : Where) : Except Error Expr := w.toClause.expr

/-- Whether two groups are the same, literals being compared by value. -/
def sameValue (w w' : Where) : Bool := w.toClause.sameValue w'.toClause

end Where

end RecordFilter
