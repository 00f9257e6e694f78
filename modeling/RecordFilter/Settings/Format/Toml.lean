import RecordFilter.Settings.Value
import RecordFilter.Toml.Reader

/-!
# Settings in TOML

TOML items as values of settings. Dates and times are texts, and it does not matter how a table
came about.
-/

namespace RecordFilter.Settings.Value

mutual

/-- A TOML item as the value of a setting. -/
def ofToml : Toml.Item → Value
  | .text s => text s
  | .boolean b => boolean b
  | .integer n => integer n
  | .real x => float x
  | .array items => list (ofTomlItems items)
  | .table _ entries => table (ofTomlEntries entries)
  | .tables elements => list (ofTomlTables elements)

/-- The items of a TOML array as values. -/
def ofTomlItems : List Toml.Item → List Value
  | [] => []
  | item :: items => ofToml item :: ofTomlItems items

/-- The entries of a TOML table as entries. -/
def ofTomlEntries : List (String × Toml.Item) → List (String × Value)
  | [] => []
  | (name, item) :: entries => (name, ofToml item) :: ofTomlEntries entries

/-- The tables of a TOML array with headers as values. -/
def ofTomlTables : List (List (String × Toml.Item)) → List Value
  | [] => []
  | entries :: elements => table (ofTomlEntries entries) :: ofTomlTables elements

end

/-- The value in a TOML text. -/
def ofTomlText? (text : String) : Option Value :=
  (Toml.ofText? text).map fun entries => table (ofTomlEntries entries)

end RecordFilter.Settings.Value
