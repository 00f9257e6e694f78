import RecordFilter.CommandLine.Arguments
import RecordFilter.Settings
import RecordFilter.Source
import RecordFilter.Yaml.Writer

/-!
# The command line

One run of the program: arguments, environment variables, files and the standard input decide
what is printed. Settings are read before the expression is, so a fault in them hides one in the
expression. Options of the command line add fields to those of the settings, and replace the
name of exact-match subfields.
-/

namespace RecordFilter.CommandLine

/-- How a run ends. -/
inductive Outcome where
  /-- A query is printed. -/
  | printed (text : String)
  /-- The arguments make no sense. -/
  | misused
  /-- The settings cannot be read. -/
  | unsettled
  /-- The standard input is no text. -/
  | unreadable
  /-- The expression has no query. -/
  | rejected (e : Error)
deriving DecidableEq

/-! ### Settings of a run -/

/-- The settings with what the arguments add and replace. -/
def Arguments.adjust (a : Arguments) (s : Settings) : Settings :=
  ⟨s.notAnalyzed ++ a.notAnalyzed, a.exactSuffix.getD s.exactSuffix⟩

/-- The settings of a run, when `lookUp` gives the settings file at a path. -/
def Arguments.settings? (a : Arguments) (environment : List (String × String))
    (lookUp : String → Option Settings.File) : Option Settings :=
  match a.settingsPath with
  | none => (Settings.read? none environment).map a.adjust
  | some path =>
    match lookUp path with
    | none => none
    | some file => (Settings.read? (some file) environment).map a.adjust

/-! ### Runs -/

/-- A query as text. -/
def Format.text (f : Format) (q : Query) : String :=
  match f with
  | compact => q.toJson.compact
  | indented => q.toJson.indented
  | yaml => q.toJson.sorted.yaml

/-- The run that arguments ask for with given settings, when the standard input holds a text or
none. -/
def Arguments.run (a : Arguments) (s : Settings) (input : Option String) : Outcome :=
  match a.expression.or input with
  | none => .unreadable
  | some text =>
    match s.compiler.compile s.fields (.ofText text) with
    | .error e => .rejected e
    | .ok q => .printed ((a.format.getD .compact).text q)

/-- A run with arguments and environment variables, when `lookUp` gives the settings file at a
path, and the standard input holds a text or none. -/
def run (args : List String) (environment : List (String × String))
    (lookUp : String → Option Settings.File) (input : Option String) : Outcome :=
  match Arguments.read? args environment with
  | none => .misused
  | some a =>
    match a.settings? environment lookUp with
    | none => .unsettled
    | some s => a.run s input

/-! ### What a run shows -/

namespace Outcome

/-- The status with which the program ends. -/
def status : Outcome → Nat
  | printed _ => 0
  | misused => 2
  | unsettled | unreadable | rejected _ => 1

/-- The standard output. -/
def output : Outcome → String
  | printed text => text ++ "\n"
  | _ => ""

/-- A text with its lines indented: the first one by one text, the others by another. -/
def indent (first others text : String) : String :=
  first ++ String.intercalate ("\n" ++ others) (text.splitOn "\n")

/-- The lines for the causes of a fault: numbered from zero if there are several. -/
def causeLines (causes : List String) : List String :=
  match causes with
  | [cause] => [indent "    " "    " cause]
  | _ => causes.mapIdx fun i cause => indent ("    " ++ i.repr ++ ": ") "       " cause

/-- The standard error. -/
def complaint : Outcome → String
  | printed _ => ""
  | misused => "error: invalid arguments\n"
  | unsettled => "Error: Config: Failed to load the settings\n"
  | unreadable => "Error: CLI: Failed to read expression from stdin\n"
  | rejected e =>
    "Error: Compile: Invalid filter expression\n\nCaused by:\n" ++
      String.intercalate "\n" (causeLines e.causes) ++ "\n"

end Outcome

end RecordFilter.CommandLine
