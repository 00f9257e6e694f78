import RecordFilter.Toml.Scalar

/-!
# Reading TOML texts

`Toml.ofText?` gives the entries of the table that a text is. A text has a key with its item, a
header or nothing on each line; arrays and tables between braces may take several lines.
-/

namespace RecordFilter.Toml

/-- How many arrays and tables between braces may stand inside each other. -/
def readingDepth : Nat := 80

/-! ### Gaps -/

/-- What follows blanks. -/
def skipBlanks (cs : List Char) : List Char := cs.dropWhile isBlankChar

/-- What follows blanks and a comment. -/
def skipComment (cs : List Char) : List Char :=
  match skipBlanks cs with
  | '#' :: rest => rest.dropWhile isLineChar
  | rest => rest

/-- What follows the end of a line, if nothing but blanks and a comment precedes it. -/
def endLine? (cs : List Char) : Option (List Char) :=
  match skipComment cs with
  | [] => some []
  | rest => skipBreak? rest

/-- What follows blanks, comments and line breaks. -/
def skipLines : (fuel : Nat) → List Char → List Char
  | 0, cs => cs
  | fuel + 1, cs =>
    match skipBreak? (skipComment cs) with
    | some rest => skipLines fuel rest
    | none => skipComment cs

/-- What follows blanks, comments and line breaks. -/
def skipGap (cs : List Char) : List Char := skipLines (cs.length + 1) cs

/-! ### Keys -/

/-- Whether a character may be part of a name without quotes. -/
def isNameChar (c : Char) : Bool := c.isAlphanum || c == '_' || c == '-'

/-- The name at the front. -/
def readName? (cs : List Char) : Option (String × List Char) :=
  match cs with
  | '"' :: rest => readLine? '"' rest
  | '\'' :: rest => readLine? '\'' rest
  | _ =>
    let name := cs.takeWhile isNameChar
    if name.isEmpty then none else some (String.ofList name, cs.drop name.length)

/-- The names of a key at the front, the last one apart, with points between them. -/
def readPath? : (fuel : Nat) → List Char → Option ((List String × String) × List Char)
  | 0, _ => none
  | fuel + 1, cs =>
    match readName? (skipBlanks cs) with
    | none => none
    | some (name, rest) =>
      match skipBlanks rest with
      | '.' :: more => (readPath? fuel more).map fun r => ((name :: r.1.1, r.1.2), r.2)
      | rest => some (([], name), rest)

/-- The key at the front, and what follows it and blanks. -/
def readKey? (cs : List Char) : Option ((List String × String) × List Char) :=
  readPath? (cs.length + 1) cs

/-! ### Items -/

mutual

/-- The item at the front, when a number of arrays and tables may still be opened, and what
follows it. -/
def readItem? : (fuel depth : Nat) → List Char → Option (Item × List Char)
  | 0, _, _ => none
  | fuel + 1, depth, cs =>
    match cs, depth with
    | '[' :: _, 0 | '\x7b' :: _, 0 => none
    | '[' :: rest, depth + 1 =>
      (readItems? fuel depth (skipGap rest)).map fun r => (.array r.1, r.2)
    | '\x7b' :: rest, depth + 1 =>
      (readEntries? fuel depth [] (skipGap rest)).map fun r => (.table .inline r.1, r.2)
    | _, _ => readScalar? cs

/-- The items of an array up to its closing bracket. Commas stand between them, and may stand
behind the last. -/
def readItems? : (fuel depth : Nat) → List Char → Option (List Item × List Char)
  | 0, _, _ => none
  | fuel + 1, depth, cs =>
    match cs with
    | ']' :: rest => some ([], rest)
    | _ =>
      match readItem? fuel depth cs with
      | none => none
      | some (item, rest) =>
        match skipGap rest with
        | ']' :: rest => some ([item], rest)
        | ',' :: rest => (readItems? fuel depth (skipGap rest)).map fun r => (item :: r.1, r.2)
        | _ => none

/-- The key at the front with its item. -/
def readEntry? : (fuel depth : Nat) → List Char →
    Option (((List String × String) × Item) × List Char)
  | 0, _, _ => none
  | fuel + 1, depth, cs =>
    match readKey? cs with
    | some (key, '=' :: rest) =>
      (readItem? fuel depth (skipBlanks rest)).map fun r => ((key, r.1), r.2)
    | _ => none

/-- The entries up to the closing brace, added to others. Commas stand between them, and may stand
behind the last. -/
def readEntries? : (fuel depth : Nat) → Entries → List Char → Option (Entries × List Char)
  | 0, _, _, _ => none
  | fuel + 1, depth, entries, cs =>
    match cs with
    | '\x7d' :: rest => some (entries, rest)
    | _ =>
      match readEntry? fuel depth cs with
      | none => none
      | some (((path, name), item), rest) =>
        match entries.insert? path name item, skipGap rest with
        | some entries, '\x7d' :: rest => some (entries, rest)
        | some entries, ',' :: rest => readEntries? fuel depth entries (skipGap rest)
        | _, _ => none

end

/-! ### Texts -/

/-- The state behind some lines of a text. -/
structure State where
  /-- The names of the header in force. -/
  path : List String := []
  entries : Entries := []

namespace State

/-- The state behind a header of one table or of one more of an array, at its brackets. -/
def readHeader? (s : State) (cs : List Char) : Option (State × List Char) :=
  match cs with
  | '[' :: '[' :: rest =>
    match readKey? rest with
    | some ((path, name), ']' :: ']' :: rest) =>
      (s.entries.appendTable? path name).map fun entries => (⟨path ++ [name], entries⟩, rest)
    | _ => none
  | '[' :: rest =>
    match readKey? rest with
    | some ((path, name), ']' :: rest) =>
      (s.entries.openTable? path name).map fun entries => (⟨path ++ [name], entries⟩, rest)
    | _ => none
  | _ => none

/-- The state behind a key with its item. -/
def readEntry? (s : State) (cs : List Char) : Option (State × List Char) :=
  match Toml.readEntry? (2 * cs.length + 2) readingDepth cs with
  | none => none
  | some (((path, name), item), rest) =>
    (s.entries.update? false (Entries.insert? path name item) s.path).map fun entries =>
      ({ s with entries }, rest)

/-- The state behind a text. -/
def run? : (fuel : Nat) → State → List Char → Option State
  | 0, _, _ => none
  | fuel + 1, s, cs =>
    let step? :=
      match skipBlanks cs with
      | '[' :: rest => s.readHeader? ('[' :: rest)
      | [] => some (s, [])
      | c :: rest =>
        if c = '#' ∨ c = '\n' ∨ c = '\r' then some (s, c :: rest) else s.readEntry? (c :: rest)
    match step? with
    | none => none
    | some (s, rest) =>
      match endLine? rest with
      | none => none
      | some [] => some s
      | some rest => run? fuel s rest

end State

/-- The entries of the table that a text is. -/
def ofText? (text : String) : Option Entries :=
  let cs := text.toList
  (State.run? (cs.length + 1) {} cs).map State.entries

end RecordFilter.Toml
