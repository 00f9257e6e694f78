import RecordFilter.Calendar.Timestamp
import RecordFilter.Decimal.Reading
import RecordFilter.Text.Spelled
import RecordFilter.Toml.Item

/-!
# Reading TOML scalars

Strings of four kinds, booleans, integers, real numbers, and dates and times, which are texts in
their usual form. Every reader returns what follows the scalar as well.
-/

namespace RecordFilter.Toml

/-- Whether a character separates words on a line. -/
def isBlankChar (c : Char) : Bool := c == ' ' || c == '\t'

/-- Whether a character may stand on a line as it is. -/
def isLineChar (c : Char) : Bool := c == '\t' || (0x20 ≤ c.toNat && c.toNat != 0x7f)

/-- What follows a line break at the front. -/
def skipBreak? : List Char → Option (List Char)
  | '\n' :: cs | '\r' :: '\n' :: cs => some cs
  | _ => none

/-! ### Strings -/

/-- The character that an escape letter stands for. -/
def unescapeLetter? (letter : Char) : Option Char :=
  match letter with
  | 'b' => some '\x08'
  | 't' => some '\t'
  | 'n' => some '\n'
  | 'f' => some '\x0c'
  | 'r' => some '\r'
  | 'e' => some '\x1b'
  | '"' => some '"'
  | '\\' => some '\\'
  | _ => none

/-- How many hexadecimal digits follow an escape letter. -/
def escapeDigits (letter : Char) : Nat :=
  match letter with
  | 'x' => 2
  | 'u' => 4
  | 'U' => 8
  | _ => 0

/-- The escape at the front, behind its backslash, as a piece of text and the number of characters
that spell it, the backslash included. -/
def escape? : List Char → Option (List Char × Nat)
  | [] => none
  | letter :: cs =>
    if escapeDigits letter = 0 then (unescapeLetter? letter).map fun c => ([c], 2)
    else (Text.readCode? (escapeDigits letter) cs).map fun c => ([c], escapeDigits letter + 2)

/-- The first piece of a line between quotes. Escapes count only if they are allowed. -/
def linePiece? (escapes : Bool) : List Char → Option (List Char × Nat)
  | [] => none
  | c :: cs =>
    if escapes && c == '\\' then escape? cs else if isLineChar c then some ([c], 1) else none

/-- The number of characters that a line break behind a backslash takes, with the blanks in front
of it and all blanks and line breaks behind it. -/
def continuationWidth? (cs : List Char) : Option Nat :=
  let blanks := (cs.takeWhile isBlankChar).length
  match skipBreak? (cs.drop blanks) with
  | none => none
  | some rest =>
    let spacing := rest.takeWhile fun c => isBlankChar c || c == '\n' || c == '\r'
    some (cs.length - rest.length + spacing.length)

/-- The first piece of lines between threefold quotes. A line break behind a backslash is dropped
with the blanks and line breaks that follow. -/
def linesPiece? (escapes : Bool) : List Char → Option (List Char × Nat)
  | [] => none
  | c :: cs =>
    match skipBreak? (c :: cs) with
    | some rest => some (['\n'], cs.length + 1 - rest.length)
    | none =>
      if escapes && c == '\\' then
        match continuationWidth? cs with
        | some width => some ([], width + 1)
        | none => escape? cs
      else if isLineChar c then some ([c], 1)
      else none

/-- The string on one line behind its opening quote. -/
def readLine? (quote : Char) (cs : List Char) : Option (String × List Char) :=
  match Text.readSpelled? (·.head? == some quote) (linePiece? (quote == '"')) 0 cs with
  | none => none
  | some (content, width) =>
    match cs.drop width with
    | [] => none
    | _ :: rest => some (String.ofList content, rest)

/-- The string of several lines behind its three opening quotes. A line break right behind these
is dropped, and up to two quotes may precede the three closing ones. -/
def readLines? (quote : Char) (cs : List Char) : Option (String × List Char) :=
  let cs := (skipBreak? cs).getD cs
  let stops (cs : List Char) : Bool := [quote, quote, quote].isPrefixOf cs
  match Text.readSpelled? stops (linesPiece? (quote == '"')) 0 cs with
  | none => none
  | some (content, width) =>
    let rest := cs.drop width
    let quotes := min 5 (rest.takeWhile (· == quote)).length
    if quotes < 3 then none
    else some (String.ofList (content ++ List.replicate (quotes - 3) quote), rest.drop quotes)

/-- The string at the front. -/
def readString? (cs : List Char) : Option (String × List Char) :=
  match cs with
  | '"' :: '"' :: '"' :: rest => readLines? '"' rest
  | '\'' :: '\'' :: '\'' :: rest => readLines? '\'' rest
  | '"' :: rest => readLine? '"' rest
  | '\'' :: rest => readLine? '\'' rest
  | _ => none

/-! ### Numbers -/

/-- Digits without the underscores between them, behind a digit or not. An underscore has a digit
on each side. -/
def plainDigitsBehind? (isDigit : Char → Bool) : (digit : Bool) → List Char → Option (List Char)
  | digit, [] => if digit then some [] else none
  | digit, c :: cs =>
    if isDigit c then (plainDigitsBehind? isDigit true cs).map (c :: ·)
    else if digit && c == '_' then plainDigitsBehind? isDigit false cs
    else none

/-- Digits, at least one, without the underscores between them. -/
def plainDigits? (isDigit : Char → Bool) (cs : List Char) : Option (List Char) :=
  plainDigitsBehind? isDigit false cs

/-- The digits of a whole number, which does not start with a needless zero. -/
def wholeDigits? (cs : List Char) : Option (List Char) :=
  (plainDigits? Char.isDigit cs).filter fun digits => digits.length = 1 ∨ digits.head? ≠ some '0'

/-- The integer that a word denotes. -/
def integer? (word : List Char) : Option Int :=
  let isHex (c : Char) : Bool := (Text.hexValue? c).isSome
  match word with
  | '0' :: 'x' :: cs => (plainDigits? isHex cs).bind (readInteger? 16)
  | '0' :: 'o' :: cs => (plainDigits? Char.isDigit cs).bind (readInteger? 8)
  | '0' :: 'b' :: cs => (plainDigits? Char.isDigit cs).bind (readInteger? 2)
  | '-' :: cs => (wholeDigits? cs).bind fun digits => readInteger? 10 ('-' :: digits)
  | '+' :: cs => (wholeDigits? cs).bind (readInteger? 10)
  | _ => (wholeDigits? word).bind (readInteger? 10)

/-- The fraction and the power of ten of a real number, without underscores: one of them at
least. -/
def scale? (cs : List Char) : Option (List Char) :=
  let power? (cs : List Char) : Option (List Char) :=
    match cs with
    | [] => some []
    | mark :: cs =>
      if mark = 'e' ∨ mark = 'E' then
        match cs with
        | '-' :: digits => (plainDigits? Char.isDigit digits).map ('e' :: '-' :: ·)
        | '+' :: digits | digits => (plainDigits? Char.isDigit digits).map ('e' :: ·)
      else none
  match cs with
  | [] => none
  | '.' :: cs =>
    let fraction := cs.takeWhile fun c => c.isDigit || c == '_'
    match plainDigits? Char.isDigit fraction, power? (cs.drop fraction.length) with
    | some digits, some power => some ('.' :: digits ++ power)
    | _, _ => none
  | cs => power? cs

/-- The real number that a word denotes. A decimal beyond the range of finite numbers is none. -/
def real? (word : List Char) : Option Binary64 :=
  let (negative, cs) := readSign word
  if cs = "inf".toList then some (.infinity negative)
  else if cs = "nan".toList then some .nan
  else
    let whole := cs.takeWhile fun c => c.isDigit || c == '_'
    match wholeDigits? whole, scale? (cs.drop whole.length) with
    | some digits, some scale =>
      let spelling := (if negative then ['-'] else []) ++ digits ++ scale
      (Binary64.ofText? (String.ofList spelling)).filter Binary64.isFinite
    | _, _ => none

/-! ### Dates and times -/

/-- The time of a day at the front in its usual form. Seconds may be missing, and nine digits of
their fraction count. -/
def readTime? (cs : List Char) : Option (List Char × List Char) := do
  let (hour, cs) ← Text.readDigits? 2 cs
  let cs ← Text.skip? ':' cs
  let (minute, cs) ← Text.readDigits? 2 cs
  if 23 < hour ∨ 59 < minute then none
  else
    let start := Text.padded 2 hour ++ ':' :: Text.padded 2 minute
    match cs with
    | ':' :: cs =>
      let (second, cs) ← Text.readDigits? 2 cs
      let rest ← Calendar.skipFraction? cs
      if 60 < second then none
      else
        let digits := ((cs.drop 1).takeWhile Char.isDigit).take 9
        let fraction := (digits.reverse.dropWhile (· == '0')).reverse
        let tail := if rest.length = cs.length ∨ fraction.isEmpty then [] else '.' :: fraction
        some (start ++ ':' :: Text.padded 2 second ++ tail, rest)
    | _ => some (start, cs)

/-- The offset at the front, if there is one, in its usual form. -/
def readZone (cs : List Char) : List Char × List Char :=
  match cs, Calendar.readOffset? cs with
  | c :: _, some (minutes, rest) =>
    (if c = 'Z' ∨ c = 'z' then ['Z'] else Calendar.Timestamp.offsetChars (minutes * 60), rest)
  | _, _ => ([], cs)

/-- The date or the time, or both, at the front in the usual form. -/
def readMoment? (cs : List Char) : Option (String × List Char) :=
  match Calendar.readUnsignedDate? false cs with
  | none => (readTime? cs).map fun r => (String.ofList r.1, r.2)
  | some (date, rest) =>
    match rest with
    | [] => some (date.text, [])
    | d :: more =>
      let separates := d == ' ' && (more.head?.map Char.isDigit).getD false
      if d = 'T' ∨ d = 't' ∨ separates then
        (readTime? more).map fun r =>
          let (zone, rest) := readZone r.2
          (String.ofList (date.chars ++ 'T' :: r.1 ++ zone), rest)
      else some (date.text, rest)

/-! ### Words -/

/-- Whether a character may be part of a word. -/
def isWordChar (c : Char) : Bool := c.isAlphanum || c == '_' || c == '-' || c == '+' || c == '.'

/-- The item that a word denotes. -/
def ofWord? (word : List Char) : Option Item :=
  if word = "true".toList then some (.boolean true)
  else if word = "false".toList then some (.boolean false)
  else
    match integer? word with
    | some n => some (.integer n)
    | none => (real? word).map .real

/-- The scalar at the front. -/
def readScalar? (cs : List Char) : Option (Item × List Char) :=
  match readString? cs with
  | some (s, rest) => some (.text s, rest)
  | none =>
    match readMoment? cs with
    | some (s, rest) => some (.text s, rest)
    | none =>
      let word := cs.takeWhile isWordChar
      (ofWord? word).map fun item => (item, cs.drop word.length)

end RecordFilter.Toml
