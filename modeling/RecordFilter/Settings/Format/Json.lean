import RecordFilter.Json.Reader
import RecordFilter.Settings.Value

/-!
# Settings in JSON

JSON values as values of settings. Null gives no value, and the other values stay what they are.
-/

namespace RecordFilter.Settings.Value

/-- The value of a number. Integers of 64 bits without a sign are floats. -/
def ofNumber : Number → Value
  | .integer n _ => if n < 0x8000000000000000 then integer n else float (.ofNat n.toNat)
  | .float x _ => float x

mutual

/-- A JSON value as the value of a setting. -/
def ofJson : Json → Value
  | .null => absent
  | .bool b => boolean b
  | .number n => ofNumber n
  | .string s => text s
  | .array elements => list (ofJsonElements elements)
  | .object members => table (ofJsonMembers members)

/-- The elements of a JSON array as values. -/
def ofJsonElements : List Json → List Value
  | [] => []
  | v :: vs => ofJson v :: ofJsonElements vs

/-- The members of a JSON object as entries. -/
def ofJsonMembers : List (String × Json) → List (String × Value)
  | [] => []
  | (name, v) :: members => (name, ofJson v) :: ofJsonMembers members

end

/-- The value in a JSON text. -/
def ofJsonText? (text : String) : Option Value := (Json.ofText? text).map ofJson

end RecordFilter.Settings.Value
