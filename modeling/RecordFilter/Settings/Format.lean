import RecordFilter.Settings.Format.Ini
import RecordFilter.Settings.Format.Json
import RecordFilter.Settings.Format.Json5
import RecordFilter.Settings.Format.Ron
import RecordFilter.Settings.Format.Toml
import RecordFilter.Settings.Format.Yaml

/-!
# Formats of settings files

The extension of a file's name tells its format. `Format.entries?` gives the entries of a text in
a format, whatever the format is; a text that is no table has none.
-/

namespace RecordFilter.Settings

/-- A format of settings files. -/
inductive Format where
  | ini
  | json
  | json5
  | ron
  | toml
  | yaml
deriving DecidableEq, Repr

namespace Format

/-- The format of files with an extension. -/
def ofExtension? (extension : String) : Option Format :=
  match extension with
  | "ini" => some ini
  | "json" => some json
  | "json5" => some json5
  | "ron" => some ron
  | "toml" => some toml
  | "yaml" | "yml" => some yaml
  | _ => none

/-- The value in a text. -/
def value? (format : Format) (text : String) : Option Value :=
  match format with
  | ini => Value.ofIniText? text
  | json => Value.ofJsonText? text
  | json5 => Value.ofJson5Text? text
  | ron => Value.ofRonText? text
  | toml => Value.ofTomlText? text
  | yaml => Value.ofYamlText? text

/-- The entries of the table in a text. -/
def entries? (format : Format) (text : String) : Option (List (String × Value)) :=
  match format.value? text with
  | some (.table entries) => some entries
  | _ => none

end Format

end RecordFilter.Settings
