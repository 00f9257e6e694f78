import RecordFilter.Settings.Value
import RecordFilter.Yaml.Value

/-!
# Settings in YAML

YAML values as values of settings. Null gives no value. Real numbers are floats, except that the
words for infinities and for NaN make the text unusable. So does a mapping with a key that is null
or a collection.
-/

namespace RecordFilter.Settings.Value

/-- The name of an entry whose key has a value. Real numbers keep their spelling; null and
collections are no names. -/
def nameOf? : Yaml.Value → Option String
  | .text s => some s
  | .integer n => some (integerText n)
  | .boolean b => some (if b then "true" else "false")
  | .real spelling => some spelling
  | .null | .invalid | .sequence _ | .mapping _ => none

mutual

/-- A YAML value as the value of a setting. -/
def ofYaml? : Yaml.Value → Option Value
  | .null | .invalid => some absent
  | .boolean b => some (boolean b)
  | .integer n => some (integer n)
  | .real spelling => (Binary64.ofText? spelling).map float
  | .text s => some (text s)
  | .sequence items => (ofYamlItems? items).map list
  | .mapping entries => (ofYamlEntries? entries).map table

/-- The items of a YAML sequence as values. -/
def ofYamlItems? : List Yaml.Value → Option (List Value)
  | [] => some []
  | item :: items =>
    match ofYaml? item, ofYamlItems? items with
    | some v, some vs => some (v :: vs)
    | _, _ => none

/-- The entries of a YAML mapping as entries of a table. -/
def ofYamlEntries? : List (Yaml.Value × Yaml.Value) → Option (List (String × Value))
  | [] => some []
  | (key, item) :: entries =>
    match nameOf? key, ofYaml? item, ofYamlEntries? entries with
    | some name, some v, some vs => some ((name, v) :: vs)
    | _, _, _ => none

end

/-- The value in a YAML text, an empty table if there is no document. -/
def ofYamlText? (text : String) : Option Value :=
  match Yaml.Value.ofText? text with
  | none => none
  | some none => some (table [])
  | some (some v) => ofYaml? v

end RecordFilter.Settings.Value
