import RecordFilter.Json
import RecordFilter.Yaml.Style

/-!
# Writing YAML texts

`Json.yaml` writes a JSON value as a YAML text in block form: an entry of a mapping or a sequence
a line, nested ones indented by two columns, except that a sequence under a key stands as far to
the left as the key. Every scalar and every entry ends its line, so entries are merely joined.
-/

namespace RecordFilter

namespace Yaml

/-- Blanks that fill a number of columns. -/
def blanks (columns : Nat) : List Char := List.replicate columns ' '

/-! ### Scalars -/

/-- The letter that stands behind a backslash for a character with a short escape. -/
def escapeLetter? (c : Char) : Option Char :=
  match c.toNat with
  | 0x0 => some '0'
  | 0x7 => some 'a'
  | 0x8 => some 'b'
  | 0x9 => some 't'
  | 0xa => some 'n'
  | 0xb => some 'v'
  | 0xc => some 'f'
  | 0xd => some 'r'
  | 0x1b => some 'e'
  | 0x22 => some '"'
  | 0x5c => some '\\'
  | 0x85 => some 'N'
  | 0x2028 => some 'L'
  | 0x2029 => some 'P'
  | _ => none

/-- A number as hexadecimal digits in upper case that fill a width. -/
def hexDigits (width n : Nat) : List Char :=
  let digits := (Nat.toDigits 16 n).map Char.toUpper
  List.replicate (width - digits.length) '0' ++ digits

/-- The written form of one character between double quotes. -/
def escape (c : Char) : List Char :=
  match escapeLetter? c with
  | some letter => ['\\', letter]
  | none =>
    if isPrintable c then [c]
    else if c.toNat < 0x100 then '\\' :: 'x' :: hexDigits 2 c.toNat
    else if c.toNat < 0x10000 then '\\' :: 'u' :: hexDigits 4 c.toNat
    else '\\' :: 'U' :: hexDigits 8 c.toNat

/-- The written form of characters between single quotes: quotes twice, and the characters
behind a line break indented. -/
def singleQuotedChars (indent : Nat) (afterBreak : Bool) : List Char → List Char
  | [] => if afterBreak then blanks indent else []
  | c :: cs =>
    let lead := if afterBreak && !isBreak c then blanks indent else []
    let written := if c == '\'' then ['\'', '\''] else [c]
    lead ++ written ++ singleQuotedChars indent (isBreak c) cs

/-- The lines of a literal block, each one indented that is not blank. -/
def literalLines (indent : Nat) (afterBreak : Bool) : List Char → List Char
  | [] => if afterBreak then [] else ['\n']
  | c :: cs =>
    let lead := if afterBreak && !isBreak c then blanks indent else []
    lead ++ c :: literalLines indent (isBreak c) cs

/-- What stands behind the bar of a literal block: a two if the indentation cannot be told from
the first line, and a mark for the number of line breaks at the end unless it is one. -/
def literalHeader (cs : List Char) : List Char :=
  let indentation := if (cs.head?.map fun c => c == ' ' || isBreak c).getD false then ['2'] else []
  let ending :=
    match cs.reverse with
    | [] => ['-']
    | [c] => if isBreak c then ['+'] else ['-']
    | c :: d :: _ => if !isBreak c then ['-'] else if isBreak d then ['+'] else []
  indentation ++ ending

/-- A text as a scalar up to the end of its line, with further lines indented. -/
def textScalar (indent : Nat) (text : String) : List Char :=
  let cs := text.toList
  match styleOf text with
  | .plain => cs ++ ['\n']
  | .singleQuoted => '\'' :: (singleQuotedChars indent false cs ++ ['\'', '\n'])
  | .doubleQuoted => '"' :: (cs.flatMap escape ++ ['"', '\n'])
  | .literal => '|' :: (literalHeader cs ++ '\n' :: literalLines indent true cs)

/-- Whether a key is written on one line with its colon. -/
def isSimpleKey (name : String) : Bool := name.utf8ByteSize ≤ 128 && !name.toList.any isBreak

/-- A key with the colon behind it, at a given column. -/
def key (column : Nat) (name : String) : List Char :=
  let scalar := textScalar (column + 2) name
  if isSimpleKey name then scalar.dropLast ++ [':']
  else '?' :: ' ' :: (scalar ++ blanks column ++ [':'])

end Yaml

namespace Json

open Yaml (blanks)

/-- A value that is no collection with entries, up to the end of its line. -/
def yamlScalar (indent : Nat) : Json → List Char
  | null => "null\n".toList
  | bool b => (if b then "true\n" else "false\n").toList
  | number n => (n.textIn .yaml ++ "\n").toList
  | string s => Yaml.textScalar indent s
  | array _ => "[]\n".toList
  | object _ => "{}\n".toList

mutual

/-- A value behind the mark of an entry that starts at a column. A collection starts on the line
of the mark if it may; otherwise, behind a simple key, on the next one. -/
def yamlEntry (column : Nat) (sameLine : Bool) : Json → List Char
  | array (v :: vs) =>
    if sameLine then yamlElements (column + 2) [' '] (v :: vs)
    else yamlElements column ('\n' :: blanks column) (v :: vs)
  | object (m :: ms) =>
    yamlMembers (column + 2) (if sameLine then [' '] else '\n' :: blanks (column + 2)) (m :: ms)
  | array [] => ' ' :: yamlScalar (column + 2) (array [])
  | object [] => ' ' :: yamlScalar (column + 2) (object [])
  | null => ' ' :: yamlScalar (column + 2) null
  | bool b => ' ' :: yamlScalar (column + 2) (bool b)
  | number n => ' ' :: yamlScalar (column + 2) (number n)
  | string s => ' ' :: yamlScalar (column + 2) (string s)

/-- The elements of a sequence at a column, the first one behind what leads to it. -/
def yamlElements (column : Nat) (lead : List Char) : List Json → List Char
  | [] => []
  | v :: vs =>
    lead ++ '-' :: yamlEntry column true v ++ yamlElements column (blanks column) vs

/-- The members of a mapping at a column, the first one behind what leads to it. -/
def yamlMembers (column : Nat) (lead : List Char) : List (String × Json) → List Char
  | [] => []
  | (name, v) :: members =>
    lead ++ Yaml.key column name ++ yamlEntry column (!Yaml.isSimpleKey name) v ++
      yamlMembers column (blanks column) members

end

/-- The YAML text of a value. -/
def yaml (v : Json) : String :=
  String.ofList <|
    match v with
    | array (v :: vs) => yamlElements 0 [] (v :: vs)
    | object (m :: ms) => yamlMembers 0 [] (m :: ms)
    | v => yamlScalar 2 v

end Json

end RecordFilter
