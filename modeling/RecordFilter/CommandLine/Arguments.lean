/-!
# Command-line arguments

What the arguments of the command line ask for: an expression, and options around it. An option
has a long name and perhaps a letter, and takes a value or is a flag. A value is attached to its
option, with or without an equals sign behind a letter, or it is the next argument. Only the
option for fields may be repeated. Behind `--` all arguments are expressions, and there is at most
one expression. `Arguments.read?` refuses everything else.
-/

namespace RecordFilter.CommandLine

/-- How a query is written. -/
inductive Format where
  | compact
  | indented
  | yaml
deriving DecidableEq, Repr

/-- The format of a name. -/
def Format.ofName? (name : String) : Option Format :=
  match name with
  | "json" => some .compact
  | "pretty" => some .indented
  | "yaml" | "yml" => some .yaml
  | _ => none

/-- What arguments ask for. -/
structure Arguments where
  /-- The filter expression. -/
  expression : Option String := none
  /-- The path of the settings file. -/
  settingsPath : Option String := none
  /-- The fields that hold exact values besides those of the settings. -/
  notAnalyzed : List String := []
  /-- The name of exact-match subfields, in place of that of the settings. -/
  exactSuffix : Option String := none
  /-- How the query is written. -/
  format : Option Format := none
  /-- Whether more is told about the run. -/
  verbose : Bool := false
deriving DecidableEq, Repr

/-- An option of the command line. -/
inductive Switch where
  | settings
  | notAnalyzed
  | exactSuffix
  | format
  | verbose
deriving DecidableEq, Repr

namespace Switch

/-- The option of a long name. -/
def ofName? (name : String) : Option Switch :=
  match name with
  | "config" => some settings
  | "not-analyzed" => some notAnalyzed
  | "exact-suffix" => some exactSuffix
  | "format" => some format
  | "verbose" => some verbose
  | _ => none

/-- The option of a letter. -/
def ofLetter? (letter : Char) : Option Switch :=
  match letter with
  | 'c' => some settings
  | 'n' => some notAnalyzed
  | 'f' => some format
  | 'v' => some verbose
  | _ => none

/-- Whether an option is a flag, without a value. -/
def isFlag (s : Switch) : Bool := s == verbose

end Switch

/-- A path, unless it is empty. -/
def path? (path : String) : Option String := if path.isEmpty then none else some path

namespace Arguments

/-! ### Single options -/

/-- The arguments with an expression, if they have none yet. -/
def setExpression? (a : Arguments) (text : String) : Option Arguments :=
  match a.expression with
  | none => some { a with expression := some text }
  | some _ => none

/-- The arguments with the value of an option, if the value is one and the option is not set
yet or may be repeated. The value of a flag does not count. -/
def set? (a : Arguments) (s : Switch) (value : String) : Option Arguments :=
  match s with
  | .settings =>
    if a.settingsPath.isSome then none
    else (path? value).map fun path => { a with settingsPath := some path }
  | .notAnalyzed => some { a with notAnalyzed := a.notAnalyzed ++ [value] }
  | .exactSuffix =>
    if a.exactSuffix.isSome then none else some { a with exactSuffix := some value }
  | .format =>
    if a.format.isSome then none
    else (Format.ofName? value).map fun format => { a with format := some format }
  | .verbose => if a.verbose then none else some { a with verbose := true }

/-! ### Rows of letters -/

/-- The arguments with a row of letters: flags, and perhaps an option at the end with its value
attached. An option without one is returned, for the next argument is its value. -/
def setLetters? (a : Arguments) : List Char → Option (Arguments × Option Switch)
  | [] => some (a, none)
  | letter :: rest =>
    match Switch.ofLetter? letter with
    | none => none
    | some s =>
      if s.isFlag then
        match a.set? s "" with
        | none => none
        | some a => setLetters? a rest
      else
        match rest with
        | [] => some (a, some s)
        | '=' :: value => (a.set? s (String.ofList value)).map fun a => (a, none)
        | value => (a.set? s (String.ofList value)).map fun a => (a, none)

/-! ### Long names -/

/-- The arguments with an option given by its long name and perhaps, behind an equals sign, its
value. An option that still needs a value is returned. -/
def setName? (a : Arguments) (cs : List Char) : Option (Arguments × Option Switch) :=
  let name := cs.takeWhile (· != '=')
  let value? := (cs.drop name.length).tail?.map String.ofList
  match Switch.ofName? (String.ofList name), value? with
  | none, _ => none
  | some s, some value =>
    if s.isFlag then none else (a.set? s value).map fun a => (a, none)
  | some s, none => if s.isFlag then (a.set? s "").map fun a => (a, none) else some (a, some s)

/-! ### All arguments -/

/-- Whether an argument is an option or the end of the options, and no value of one. -/
def isOption (arg : String) : Bool :=
  match arg.toList with
  | '-' :: _ :: _ => true
  | _ => false

/-- Reads arguments one after the other, the first one as the value of an option that waits for
one. -/
def readFrom? (a : Arguments) (waiting : Option Switch) : List String → Option Arguments
  | [] => if waiting.isSome then none else some a
  | arg :: args =>
    match waiting with
    | some s =>
      if isOption arg then none
      else
        match a.set? s arg with
        | none => none
        | some a => readFrom? a none args
    | none =>
      match arg.toList with
      | ['-', '-'] => args.foldlM setExpression? a
      | '-' :: '-' :: name =>
        match a.setName? name with
        | none => none
        | some (a, waiting) => readFrom? a waiting args
      | '-' :: letter :: letters =>
        match a.setLetters? (letter :: letters) with
        | none => none
        | some (a, waiting) => readFrom? a waiting args
      | _ =>
        match a.setExpression? arg with
        | none => none
        | some a => readFrom? a none args

/-- The environment variable for the path of the settings file. -/
def pathVariable : String := "MUTO_CONFIG"

/-- What arguments ask for. An environment variable gives the path of the settings file if they
do not. -/
def read? (args : List String) (environment : List (String × String)) : Option Arguments :=
  match readFrom? {} none args with
  | none => none
  | some a =>
    match a.settingsPath, environment.lookup pathVariable with
    | none, some path => (path? path).map fun path => { a with settingsPath := some path }
    | _, _ => some a

end Arguments

end RecordFilter.CommandLine
