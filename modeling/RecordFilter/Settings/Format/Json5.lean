import RecordFilter.Settings.Value
import RecordFilter.Text.Blank
import RecordFilter.Text.Letter
import RecordFilter.Text.Spelled

/-!
# Settings in JSON5

JSON with the freedom of a script: comments, names without quotes, strings between single quotes
or on several lines, commas behind the last part, and more spellings of numbers.
-/

namespace RecordFilter.Settings.Json5

/-! ### Gaps -/

/-- Whether a character ends a line. -/
def isBreak (c : Char) : Bool := c == '\n' || c == '\r' || c == '\u2028' || c == '\u2029'

/-- Whether a character may stand between the parts of a text. -/
def isSpacing (c : Char) : Bool := (Text.isBlank c && c != '\x85') || c == '\ufeff'

/-- What follows the end of a comment, if it ends. -/
def skipComment? : List Char → Option (List Char)
  | [] => none
  | '*' :: '/' :: cs => some cs
  | _ :: cs => skipComment? cs

/-- What follows spacing and comments. -/
def skipGapWithin? : (fuel : Nat) → List Char → Option (List Char)
  | 0, _ => none
  | fuel + 1, cs =>
    match cs.dropWhile isSpacing with
    | '/' :: '/' :: rest => skipGapWithin? fuel (rest.dropWhile fun c => !isBreak c)
    | '/' :: '*' :: rest => (skipComment? rest).bind (skipGapWithin? fuel)
    | rest => some rest

/-- What follows spacing and comments. -/
def skipGap? (cs : List Char) : Option (List Char) := skipGapWithin? (cs.length + 1) cs

/-! ### Strings -/

/-- The character that an escape letter stands for, often itself. -/
def unescapeLetter? (letter : Char) : Option Char :=
  match letter with
  | 'b' => some '\x08'
  | 't' => some '\t'
  | 'n' => some '\n'
  | 'v' => some '\x0b'
  | 'f' => some '\x0c'
  | 'r' => some '\r'
  | '0' => some '\x00'
  | c => if c.isDigit then none else some c

/-- The character that an escape by the code of a 16-bit unit denotes, behind its letter, and how
many characters behind the letter spell it. Two halves of a surrogate pair denote one. -/
def readUnits? (cs : List Char) : Option (Char × Nat) :=
  match cs with
  | a :: b :: c :: d :: rest =>
    match Text.unit? a b c d, rest with
    | none, _ => none
    | some high, '\\' :: 'u' :: a' :: b' :: c' :: d' :: _ =>
      match Text.unit? a' b' c' d' with
      | none => none
      | some low =>
        if Text.isHighSurrogate high && Text.isLowSurrogate low then
          some (Text.pairChar high low, 10)
        else if high.isValidChar then some (Char.ofNat high, 4)
        else none
    | some code, _ => if code.isValidChar then some (Char.ofNat code, 4) else none
  | _ => none

/-- The first piece of a string, and how many characters spell it. A line break behind a backslash
stands for nothing. -/
def piece? : List Char → Option (List Char × Nat)
  | [] => none
  | '\\' :: '\r' :: '\n' :: _ => some ([], 3)
  | '\\' :: 'x' :: cs => (Text.readCode? 2 cs).map fun c => ([c], 4)
  | '\\' :: 'u' :: cs => (readUnits? cs).map fun r => ([r.1], r.2 + 2)
  | '\\' :: letter :: cs =>
    if isBreak letter then some ([], 2)
    else if letter == '0' && (cs.head?.map Char.isDigit).getD false then none
    else (unescapeLetter? letter).map fun c => ([c], 2)
  | c :: _ => if c == '\\' || c == '\n' || c == '\r' then none else some ([c], 1)

/-- The string behind its opening quote. -/
def readString? (quote : Char) (cs : List Char) : Option (String × List Char) :=
  match Text.readSpelled? (·.head? == some quote) piece? 0 cs with
  | none => none
  | some (content, width) =>
    match cs.drop width with
    | [] => none
    | _ :: rest => some (String.ofList content, rest)

/-! ### Names and numbers -/

/-- Whether a character may start a name. -/
def isNameStart (c : Char) : Bool := Text.isAlphabetic c || c == '$' || c == '_'

/-- Whether a character may be part of a name. -/
def isNamePart (c : Char) : Bool :=
  isNameStart c || Text.isNumeric c || c == '\u200c' || c == '\u200d'

/-- The first piece of a name, and how many characters spell it. -/
def namePiece? : List Char → Option (List Char × Nat)
  | [] => none
  | '\\' :: 'u' :: cs => (Text.readCode? 4 cs).map fun c => ([c], 6)
  | c :: _ => if isNamePart c then some ([c], 1) else none

/-- The name at the front, between quotes or not. -/
def readName? (cs : List Char) : Option (String × List Char) :=
  match cs with
  | '"' :: rest => readString? '"' rest
  | '\'' :: rest => readString? '\'' rest
  | _ =>
    let stops (cs : List Char) : Bool :=
      !(cs.head?.map fun c => isNamePart c || c == '\\').getD false
    match Text.readSpelled? stops namePiece? 0 cs with
    | some (c :: name, width) =>
      if isNameStart c then some (String.ofList (c :: name), cs.drop width) else none
    | _ => none

/-- Whether characters are the digits of a decimal without a sign: a point may start or end it,
and a zero in front of other digits may not. -/
def isDecimal (cs : List Char) : Bool :=
  let whole := cs.takeWhile Char.isDigit
  whole.length ≤ 1 || whole.head? != some '0'

/-- The value that a number without a sign denotes. -/
def ofNumber? (negative : Bool) (cs : List Char) : Option Value :=
  let spelling := if negative then '-' :: cs else cs
  match cs with
  | '0' :: 'x' :: digits | '0' :: 'X' :: digits =>
    (readDigitsIn? 16 digits).bind fun n =>
      (readInteger? 10 ((if negative then ['-'] else []) ++ Nat.toDigits 10 n)).map .integer
  | _ =>
    if cs = "Infinity".toList then some (.float (.infinity negative))
    else if cs = "NaN".toList then some (.float .nan)
    else if !isDecimal cs then none
    else
      match readInteger? 10 spelling with
      | some n => some (.integer n)
      | none =>
        if cs.any Char.isDigit then (Binary64.ofText? (String.ofList spelling)).map .float
        else none

/-- Whether a character may be part of a number behind its sign or a word. -/
def isWordChar (c : Char) : Bool := c.isAlphanum || c == '.'

/-- The number or the word at the front. The sign of a power of ten belongs to a number. -/
def readWord (cs : List Char) : List Char × List Char :=
  let start := cs.takeWhile isWordChar
  let rest := cs.drop start.length
  let isHex := start.head? == some '0' && (start[1]? == some 'x' || start[1]? == some 'X')
  match start.getLast?, rest with
  | some mark, sign :: more =>
    if (mark = 'e' ∨ mark = 'E') ∧ (sign = '+' ∨ sign = '-') ∧ !isHex then
      (start ++ sign :: more.takeWhile Char.isDigit, more.dropWhile Char.isDigit)
    else (start, rest)
  | _, _ => (start, rest)

/-- The value at the front that is neither a list nor a table. -/
def readAtom? (cs : List Char) : Option (Value × List Char) :=
  match cs with
  | '"' :: rest => (readString? '"' rest).map fun r => (.text r.1, r.2)
  | '\'' :: rest => (readString? '\'' rest).map fun r => (.text r.1, r.2)
  | '-' :: rest =>
    let (word, rest) := readWord rest
    (ofNumber? true word).map fun v => (v, rest)
  | '+' :: rest =>
    let (word, rest) := readWord rest
    (ofNumber? false word).map fun v => (v, rest)
  | _ =>
    let (word, rest) := readWord cs
    match String.ofList word with
    | "null" => some (.absent, rest)
    | "true" => some (.boolean true, rest)
    | "false" => some (.boolean false, rest)
    | _ => (ofNumber? false word).map fun v => (v, rest)

/-! ### Values -/

mutual

/-- The value at the front, and what follows it and the gap behind it. -/
def readValue? : (fuel : Nat) → List Char → Option (Value × List Char)
  | 0, _ => none
  | fuel + 1, cs => do
    let (v, rest) ←
      match ← skipGap? cs with
      | '[' :: rest => (readElements? fuel (← skipGap? rest)).map fun r => (.list r.1, r.2)
      | '\x7b' :: rest => (readMembers? fuel (← skipGap? rest)).map fun r => (.table r.1, r.2)
      | rest => readAtom? rest
    some (v, ← skipGap? rest)

/-- The elements of a list up to its closing bracket. -/
def readElements? : (fuel : Nat) → List Char → Option (List Value × List Char)
  | 0, _ => none
  | fuel + 1, cs =>
    match cs with
    | ']' :: rest => some ([], rest)
    | _ =>
      match readValue? fuel cs with
      | some (v, ']' :: rest) => some ([v], rest)
      | some (v, ',' :: rest) =>
        ((skipGap? rest).bind (readElements? fuel)).map fun r => (v :: r.1, r.2)
      | _ => none

/-- The members of a table up to its closing brace. -/
def readMembers? : (fuel : Nat) → List Char → Option (List (String × Value) × List Char)
  | 0, _ => none
  | fuel + 1, cs =>
    match cs with
    | '\x7d' :: rest => some ([], rest)
    | _ =>
      match readName? cs with
      | none => none
      | some (name, rest) =>
        match skipGap? rest with
        | some (':' :: rest) =>
          match readValue? fuel rest with
          | some (v, '\x7d' :: rest) => some ([(name, v)], rest)
          | some (v, ',' :: rest) =>
            ((skipGap? rest).bind (readMembers? fuel)).map fun r => ((name, v) :: r.1, r.2)
          | _ => none
        | _ => none

end

end Json5

/-- The value in a JSON5 text. -/
def Value.ofJson5Text? (text : String) : Option Value :=
  let cs := text.toList
  match Json5.readValue? (2 * cs.length + 2) cs with
  | some (v, []) => some v
  | _ => none

end RecordFilter.Settings
