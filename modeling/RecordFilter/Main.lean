import RecordFilter.CommandLine

/-!
# The program

The outer layer of the command line: it reads arguments, environment, files and the standard
input, and prints what `CommandLine.run` says.
-/

namespace RecordFilter.CommandLine

/-- What follows the last one of a character in a text, if the text has it behind other
characters. -/
def behindLast? (mark : Char) (text : String) : Option String :=
  let tail := text.toList.reverse.takeWhile (· != mark)
  if tail.length + 1 < text.length then some (String.ofList tail.reverse) else none

/-- The extension of the name of a file. -/
def extensionOf (path : String) : String :=
  (behindLast? '.' ((behindLast? '/' path).getD path)).getD ""

/-- The settings file at a path, if it can be read. -/
def readSettingsFile (path : String) : IO (Option Settings.File) := do
  try
    let bytes ← IO.FS.readBinFile path
    return (String.fromUTF8? bytes).map fun text => ⟨extensionOf path, text⟩
  catch _ => return none

/-- The environment variables, as names and values. -/
def readEnvironment : IO (List (String × String)) := do
  try
    let bytes ← IO.FS.readBinFile "/proc/self/environ"
    let entries := ((String.fromUTF8? bytes).getD "").splitOn "\x00"
    return entries.filterMap fun entry =>
      match entry.splitOn "=" with
      | name :: value@(_ :: _) => some (name, String.intercalate "=" value)
      | _ => none
  catch _ => return []

/-- All bytes that are still to come from a stream, behind those read before. -/
partial def readAll (stream : IO.FS.Stream) (before : ByteArray) : IO ByteArray := do
  let bytes ← stream.read 65536
  if bytes.isEmpty then return before else readAll stream (before ++ bytes)

/-- Runs the program. The standard input is read only if there is no expression among the
arguments and the settings are sound. -/
def execute (args : List String) : IO UInt32 := do
  let environment ← readEnvironment
  let a? := Arguments.read? args environment
  let file ←
    match a?.bind Arguments.settingsPath with
    | some path => readSettingsFile path
    | none => pure none
  let lookUp (_ : String) : Option Settings.File := file
  let needsInput :=
    match a? with
    | some a => a.expression.isNone && (a.settings? environment lookUp).isSome
    | none => false
  let input ←
    if needsInput then
      pure (String.fromUTF8? (← readAll (← IO.getStdin) .empty))
    else pure none
  let outcome := run args environment lookUp input
  IO.print outcome.output
  IO.eprint outcome.complaint
  return outcome.status.toUInt32

end RecordFilter.CommandLine

/-- The entry point. -/
def main (args : List String) : IO UInt32 := RecordFilter.CommandLine.execute args
