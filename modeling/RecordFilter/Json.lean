import RecordFilter.Number
import RecordFilter.Text.Quoted

/-!
# JSON values

JSON values whose objects keep the order of their members, with two written forms: the compact
one without any space, and the indented one with a member or an element a line. `Json.sorted`
puts the members of every object in the order of their names.
-/

namespace RecordFilter

/-- A JSON value. -/
inductive Json where
  | null
  | bool (b : Bool)
  | number (n : Number)
  | string (s : String)
  | array (elements : List Json)
  | object (members : List (String × Json))

namespace Json

/-! ### The compact form -/

mutual

/-- The text of a value without spaces. -/
def compact : Json → String
  | null => "null"
  | bool b => if b then "true" else "false"
  | number n => n.text
  | string s => Text.quote s
  | array elements => "[" ++ String.intercalate "," (compactElements elements) ++ "]"
  | object members => "\x7b" ++ String.intercalate "," (compactMembers members) ++ "\x7d"

/-- The texts of the elements of an array. -/
def compactElements : List Json → List String
  | [] => []
  | v :: vs => v.compact :: compactElements vs

/-- The texts of the members of an object. -/
def compactMembers : List (String × Json) → List String
  | [] => []
  | (name, v) :: members => (Text.quote name ++ ":" ++ v.compact) :: compactMembers members

end

/-! ### The indented form -/

/-- A line break and the indentation of a level: two spaces each. -/
def newLine (level : Nat) : String := "\n" ++ String.ofList (List.replicate (2 * level) ' ')

/-- Lines between two brackets, one level deeper than these. -/
def block (opening closing : String) (level : Nat) (lines : List String) : String :=
  if lines.isEmpty then opening ++ closing
  else opening ++ newLine (level + 1) ++ String.intercalate ("," ++ newLine (level + 1)) lines ++
    newLine level ++ closing

mutual

/-- The text of a value with an element or a member a line, when it starts at a level of
indentation. -/
def indentedAt (level : Nat) : Json → String
  | array elements => block "[" "]" level (indentedElements (level + 1) elements)
  | object members => block "\x7b" "\x7d" level (indentedMembers (level + 1) members)
  | null => "null"
  | bool b => if b then "true" else "false"
  | number n => n.text
  | string s => Text.quote s

/-- The texts of the elements of an array. -/
def indentedElements (level : Nat) : List Json → List String
  | [] => []
  | v :: vs => v.indentedAt level :: indentedElements level vs

/-- The texts of the members of an object. -/
def indentedMembers (level : Nat) : List (String × Json) → List String
  | [] => []
  | (name, v) :: members =>
    (Text.quote name ++ ": " ++ v.indentedAt level) :: indentedMembers level members

end

/-- The text of a value with an element or a member a line. -/
def indented (v : Json) : String := v.indentedAt 0

/-! ### Sorted members -/

/-- Puts a member in front of the first one whose name is greater, and in place of one with the
same name. -/
def insertMember (name : String) (v : Json) : List (String × Json) → List (String × Json)
  | [] => [(name, v)]
  | (name', v') :: members =>
    if name < name' then (name, v) :: (name', v') :: members
    else if name = name' then (name, v) :: members
    else (name', v') :: insertMember name v members

mutual

/-- The value with the members of each object in the order of their names; of several members of
one name the last stays. -/
def sorted : Json → Json
  | array elements => .array (sortedElements elements)
  | object members => .object (sortedMembers [] members)
  | null => .null
  | bool b => .bool b
  | number n => .number n
  | string s => .string s

/-- The sorted elements of an array. -/
def sortedElements : List Json → List Json
  | [] => []
  | v :: vs => v.sorted :: sortedElements vs

/-- Inserts the sorted members of an object one after the other. -/
def sortedMembers (sortedSoFar : List (String × Json)) : List (String × Json) → List (String × Json)
  | [] => sortedSoFar
  | (name, v) :: members => sortedMembers (insertMember name v.sorted sortedSoFar) members

end

end Json

end RecordFilter
