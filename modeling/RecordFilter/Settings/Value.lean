import RecordFilter.Decimal.Reading
import RecordFilter.Number

/-!
# Values of settings

What a settings file or an environment variable gives for a setting, before the setting's own
type is known. `Value.ofVariable` is the value of a variable: its text counts as a boolean, an
integer or a float where it reads as one. `Value.text?` turns a value into the text that a
setting wants, and does not give back the spelling: `007` becomes `7`. A value can be put at a
path into another one (`Value.put`).
-/

namespace RecordFilter.Settings

/-- The value of a setting. -/
inductive Value where
  | absent
  | boolean (b : Bool)
  | integer (n : Int)
  | float (x : Binary64)
  | text (s : String)
  | list (elements : List Value)
  | table (entries : List (String × Value))

namespace Value

/-! ### Conversion to texts -/

/-- The value as a text, if it is a single one. -/
def text? : Value → Option String
  | text s => some s
  | boolean b => some (if b then "true" else "false")
  | integer n => some (integerText n)
  | float x => some x.plainText
  | absent | list _ | table _ => none

/-- The value as a list of texts, if it is a list and every element has a text. -/
def texts? : Value → Option (List String)
  | list elements => elements.mapM text?
  | _ => none

/-! ### Values of variables -/

/-- The value of a text: a boolean in any case, an integer, a float, or whatever else it is. -/
def ofText (orElse : String → Value) (s : String) : Value :=
  match String.ofList (s.toList.map Char.toLower) with
  | "true" => boolean true
  | "false" => boolean false
  | _ =>
    match readInteger? 10 s.toList with
    | some n => integer n
    | none =>
      match Binary64.ofText? s with
      | some x => float x
      | none => orElse s

/-- The value of the variable of a setting. The settings that hold lists are separated by
commas. -/
def ofVariable (isList : Bool) (s : String) : Value :=
  ofText (fun s => if isList then list ((s.splitOn ",").map text) else text s) s

/-! ### Paths -/

/-- A step from a value to a part of it. -/
inductive Step where
  /-- To the entry of a table. -/
  | entry (name : String)
  /-- To the element of a list, counted from its end if negative. -/
  | element (index : Int)
deriving DecidableEq, Repr

/-- The entries of a value that is used as a table. -/
def entries : Value → List (String × Value)
  | table entries => entries
  | _ => []

/-- The elements of a value that is used as a list. -/
def elements : Value → List Value
  | list elements => elements
  | _ => []

/-- The entry of a name. -/
def entry? (v : Value) (name : String) : Option Value :=
  (v.entries.find? fun e => e.1 == name).map Prod.snd

/-- The entries with one changed or, if there is none of its name, added. -/
def putEntry (name : String) (v : Value) (entries : List (String × Value)) :
    List (String × Value) :=
  if entries.any fun e => e.1 == name then
    entries.map fun e => if e.1 == name then (name, v) else e
  else entries ++ [(name, v)]

/-- The elements with as many absent ones added, behind or in front, as an index asks for, and
the place of the index among them. -/
def makeRoom (index : Int) (elements : List Value) : List Value × Nat :=
  let place := if index < 0 then (elements.length : Int) + index else index
  if place < 0 then (List.replicate (-place).toNat absent ++ elements, 0)
  else (elements ++ List.replicate (place.toNat + 1 - elements.length) absent, place.toNat)

/-- The value with a new one at a path. What stands in the way of a step is replaced. -/
def put (new : Value) : List Step → Value → Value
  | [], _ => new
  | .entry name :: steps, v =>
    table (putEntry name (put new steps ((v.entry? name).getD absent)) v.entries)
  | .element index :: steps, v =>
    let (room, place) := makeRoom index v.elements
    list (room.set place (put new steps ((room[place]?).getD absent)))

/-! ### Names of paths -/

/-- Whether a character may be part of the name of an entry in a path. -/
def isNamePart (c : Char) : Bool := c.isAlphanum || c == '_' || c == '-'

/-- Whether a character may stand around an index in a path. -/
def isNameGap (c : Char) : Bool := c == ' ' || c == '\t'

/-- The steps that characters denote: `.name` or `[index]` each. -/
def readSteps? : (fuel : Nat) → List Char → Option (List Step)
  | _, [] => some []
  | 0, _ => none
  | fuel + 1, '.' :: cs =>
    let name := cs.takeWhile isNamePart
    if name.isEmpty then none
    else (readSteps? fuel (cs.drop name.length)).map (.entry (String.ofList name) :: ·)
  | fuel + 1, '[' :: cs =>
    let cs := cs.dropWhile isNameGap
    let sign := if cs.head? = some '-' then ['-'] else []
    let digits := (cs.drop sign.length).takeWhile Char.isDigit
    match readInteger? 10 (sign ++ digits),
      (cs.drop (sign.length + digits.length)).dropWhile isNameGap with
    | some index, ']' :: rest => (readSteps? fuel rest).map (.element index :: ·)
    | _, _ => none
  | _, _ => none

/-- The path that the name of a setting denotes: the name alone if it is no path. -/
def pathOf (name : String) : List Step :=
  let cs := name.toList
  let root := cs.takeWhile isNamePart
  if root.isEmpty then [.entry name]
  else
    match readSteps? cs.length (cs.drop root.length) with
    | some steps => .entry (String.ofList root) :: steps
    | none => [.entry name]

end Value

end RecordFilter.Settings
