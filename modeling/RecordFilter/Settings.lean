import RecordFilter.Compiler
import RecordFilter.Settings.Format

/-!
# Settings of the compiler

Which fields hold exact values, and how exact-match subfields are called. Settings come from a
file and from environment variables, which override the file; what neither names has a default.
The variables have a common start of their names and may be spelled in any case, while the names
in a file are in lower case. A setting whose value cannot be turned into its type is a failure:
it does not fall back to the default.
-/

namespace RecordFilter

/-- The settings of the compiler. -/
structure Settings where
  /-- The names of the fields that hold exact values. -/
  notAnalyzed : List String := []
  /-- The name of exact-match subfields. -/
  exactSuffix : String := defaultExactSuffix
deriving DecidableEq, Repr

namespace Settings

/-- The name of the setting for the fields that hold exact values. -/
def notAnalyzedName : String := "not_analyzed_fields"

/-- The name of the setting for the name of exact-match subfields. -/
def exactSuffixName : String := "exact_suffix"

/-- The fields that hold exact values. -/
def fields (s : Settings) : FieldSet := .ofList s.notAnalyzed

/-- The compiler with these settings. -/
def compiler (s : Settings) : Compiler Query := .elastic s.exactSuffix

/-- The settings as a JSON value. -/
def toJson (s : Settings) : Json :=
  .object [(notAnalyzedName, .array (s.notAnalyzed.map .string)),
    (exactSuffixName, .string s.exactSuffix)]

/-! ### Files -/

/-- A settings file: the extension of its name, and its text. -/
structure File where
  extension : String
  text : String

/-- The entries of a settings file. The extension tells its format. A mark of the byte order at
the start of the text does not count. -/
def File.entries? (file : File) : Option (List (String × Value)) :=
  (Format.ofExtension? file.extension).bind fun format =>
    format.entries? (file.text.dropPrefix "\ufeff").toString

/-! ### Variables -/

/-- The start of the names of the variables that hold settings, in lower case. -/
def variableStart : List Char := "muto_".toList

/-- The setting that a variable of a name holds. -/
def settingOf? (variable_ : String) : Option String :=
  let cs := variable_.toList.map Char.toLower
  if variableStart.isPrefixOf cs then some (String.ofList (cs.drop variableStart.length)) else none

/-- The entries of environment variables, given as names and values. -/
def variableEntries (environment : List (String × String)) : List (String × Value) :=
  environment.filterMap fun (variable_, value) =>
    (settingOf? variable_).map fun name => (name, .ofVariable (name == notAnalyzedName) value)

/-! ### Reading settings -/

/-- Puts entries into a value one after the other, each one at the path that its name denotes. -/
def gather (entries : List (String × Value)) (v : Value) : Value :=
  entries.foldl (fun v e => Value.put e.2 (Value.pathOf e.1) v) v

/-- The settings in a value. -/
def ofValue? (v : Value) : Option Settings :=
  let notAnalyzed? :=
    match v.entry? notAnalyzedName with
    | none => some []
    | some value => value.texts?
  let exactSuffix? :=
    match v.entry? exactSuffixName with
    | none => some defaultExactSuffix
    | some value => value.text?
  match notAnalyzed?, exactSuffix? with
  | some notAnalyzed, some exactSuffix => some ⟨notAnalyzed, exactSuffix⟩
  | _, _ => none

/-- The settings of a file and of environment variables, which override the file. -/
def read? (file : Option File) (environment : List (String × String)) : Option Settings :=
  let fileEntries? :=
    match file with
    | none => some []
    | some file => file.entries?
  match fileEntries? with
  | none => none
  | some entries => ofValue? (gather (entries ++ variableEntries environment) (.table []))

end Settings

end RecordFilter
