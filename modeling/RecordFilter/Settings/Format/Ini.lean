import RecordFilter.Settings.Value
import RecordFilter.Text.Blank
import RecordFilter.Text.Spelled

/-!
# Settings in INI

A text of keys, each with a text behind an equals sign or a colon, and of sections whose names
stand between brackets. A section is a table, and so is the whole text; of two sections or keys of
one name the later counts. Comments take whole lines. A backslash starts an escape, and a value
may have parts between quotes.
-/

namespace RecordFilter.Settings.Ini

/-! ### Pieces of text -/

/-- A text without the blanks around it. -/
def trim (cs : List Char) : List Char :=
  ((cs.dropWhile Text.isBlank).reverse.dropWhile Text.isBlank).reverse

/-- A text without the blanks at its end. -/
def trimEnd (cs : List Char) : List Char := (cs.reverse.dropWhile Text.isBlank).reverse

/-- The piece of text that a letter behind a backslash stands for. A line break stands for
nothing, and what is no escape letter for itself. -/
def unescapeLetter (letter : Char) : List Char :=
  match letter with
  | '0' => ['\x00']
  | 'a' => ['\x07']
  | 'b' => ['\x08']
  | 't' => ['\t']
  | 'r' => ['\r']
  | 'n' => ['\n']
  | '\n' => []
  | c => [c]

/-- The first piece of a text, and how many characters spell it. -/
def piece? : List Char → Option (List Char × Nat)
  | [] => none
  | c :: cs =>
    if c == '\\' then
      match cs with
      | [] => none
      | letter :: digits =>
        if letter == 'x' then (Text.readCode? 4 digits).map fun d => ([d], 6)
        else some (unescapeLetter letter, 2)
    else some ([c], 1)

/-- The text up to the first character of a class, and what starts with that character. -/
def readUntil? (ends : Char → Bool) (cs : List Char) : Option (List Char × List Char) :=
  (Text.readSpelled? (fun cs => (cs.head?.map ends).getD false) piece? 0 cs).map fun r =>
    (r.1, cs.drop r.2)

/-- The text up to a character of a class, which has to come, and what follows that character. -/
def readPast? (ends : Char → Bool) (cs : List Char) : Option (List Char × List Char) :=
  match readUntil? ends cs with
  | some (content, _ :: rest) => some (content, rest)
  | _ => none

/-! ### Values -/

/-- The value at the front up to the end of the line. Parts between quotes keep the blanks in
them; the first part has none at its start. -/
def readValue? : (fuel : Nat) → (first : Bool) → List Char → Option (List Char × List Char)
  | 0, _, _ => none
  | fuel + 1, first, cs =>
    match cs with
    | [] => some ([], [])
    | c :: more =>
      if c == '"' || c == '\'' then
        match readPast? (· == c) more with
        | none => none
        | some (part, rest) => (readValue? fuel false rest).map fun r => (part ++ r.1, r.2)
      else
        (readUntil? (fun d => d == '\n' || d == '\r') cs).map fun r =>
          (if first then trim r.1 else trimEnd r.1, r.2)

/-- What follows blanks on the same line. -/
def skipBlanks (cs : List Char) : List Char :=
  cs.dropWhile fun c => Text.isBlank c && c != '\n' && c != '\r'

/-! ### Texts -/

/-- Puts a value at a name, in the place of an earlier one. -/
def put (section_? : Option String) (name value : String) (entries : List (String × Value)) :
    List (String × Value) :=
  match section_? with
  | none => Value.putEntry name (.text value) entries
  | some title =>
    let inner := ((entries.lookup title).map Value.entries).getD []
    Value.putEntry title (.table (Value.putEntry name (.text value) inner)) entries

/-- The entries of a text, added to those in front of it. `fresh` tells whether a line starts at
the front. -/
def readEntries? : (fuel : Nat) → (fresh : Bool) → (section_? : Option String) →
    (entries : List (String × Value)) → List Char → Option (List (String × Value))
  | 0, _, _, _, _ => none
  | fuel + 1, fresh, section_?, entries, cs =>
    let blanks := cs.takeWhile Text.isBlank
    let fresh := (blanks.getLast?.map (· == '\n')).getD fresh
    match cs.drop blanks.length with
    | [] => some entries
    | c :: rest =>
      if c == ';' || c == '#' then
        if fresh then
          readEntries? fuel true section_? entries ((rest.dropWhile (· != '\n')).drop 1)
        else none
      else if c == '[' then
        match readPast? (· == ']') rest with
        | none => none
        | some (title, rest) =>
          let title := String.ofList (trim title)
          readEntries? fuel false (some title) (Value.putEntry title (.table []) entries) rest
      else
        match readPast? (fun d => d == '=' || d == ':') (c :: rest) with
        | none => none
        | some (name, rest) =>
          match readValue? (rest.length + 1) true (skipBlanks rest) with
          | none => none
          | some (value, rest) =>
            let name := String.ofList (trim name)
            if name.isEmpty then none
            else
              readEntries? fuel false section_? (put section_? name (String.ofList value) entries)
                rest

end Ini

/-- The value in an INI text. -/
def Value.ofIniText? (text : String) : Option Value :=
  let cs := text.toList
  (Ini.readEntries? (cs.length + 1) true none [] cs).map .table

end RecordFilter.Settings
