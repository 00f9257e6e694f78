import RecordFilter.Settings.Value
import RecordFilter.Text.Letter
import RecordFilter.Text.Spelled

/-!
# Settings in RON

Values in the notation of records: tables between braces, whose keys are strings, or between
parentheses, whose keys are names. A name may precede the parentheses, and one alone gives no
value, like an empty pair of parentheses. A value may be wrapped as an optional one.
-/

namespace RecordFilter.Settings.Ron

/-! ### Gaps -/

/-- Whether a character may stand between the parts of a text. -/
def isSpacing (c : Char) : Bool :=
  c == ' ' || ('\t' ≤ c && c ≤ '\r') || c == '\x85' || c == '\u200e' || c == '\u200f' ||
    c == '\u2028' || c == '\u2029'

/-- What follows the end of comments inside each other, if they end. -/
def skipComment? : (depth : Nat) → List Char → Option (List Char)
  | 0, cs => some cs
  | _, [] => none
  | depth + 1, '*' :: '/' :: cs => skipComment? depth cs
  | depth + 1, '/' :: '*' :: cs => skipComment? (depth + 2) cs
  | depth + 1, _ :: cs => skipComment? (depth + 1) cs

/-- What follows spacing and comments. -/
def skipGapWithin? : (fuel : Nat) → List Char → Option (List Char)
  | 0, _ => none
  | fuel + 1, cs =>
    match cs.dropWhile isSpacing with
    | '/' :: '/' :: rest => skipGapWithin? fuel (rest.dropWhile (· != '\n'))
    | '/' :: '*' :: rest => (skipComment? 1 rest).bind (skipGapWithin? fuel)
    | rest => some rest

/-- What follows spacing and comments. -/
def skipGap? (cs : List Char) : Option (List Char) := skipGapWithin? (cs.length + 1) cs

/-! ### Strings -/

/-- The character that an escape letter stands for. -/
def unescapeLetter? (letter : Char) : Option Char :=
  match letter with
  | '\'' => some '\''
  | '"' => some '"'
  | '\\' => some '\\'
  | 'n' => some '\n'
  | 'r' => some '\r'
  | 't' => some '\t'
  | '0' => some '\x00'
  | _ => none

/-- The first piece of a string, and how many characters spell it. -/
def piece? : List Char → Option (List Char × Nat)
  | [] => none
  | '\\' :: 'x' :: cs => (Text.readCode? 2 cs).map fun c => ([c], 4)
  | '\\' :: 'u' :: '\x7b' :: cs =>
    let digits := cs.takeWhile (· != '\x7d')
    if digits.length = 0 ∨ 6 < digits.length ∨ digits.length = cs.length then none
    else (Text.readCode? digits.length cs).map fun c => ([c], digits.length + 4)
  | '\\' :: letter :: _ => (unescapeLetter? letter).map fun c => ([c], 2)
  | c :: _ => if c == '\\' then none else some ([c], 1)

/-- The string behind its opening quote. -/
def readString? (cs : List Char) : Option (String × List Char) :=
  match Text.readSpelled? (·.head? == some '"') piece? 0 cs with
  | none => none
  | some (content, width) =>
    match cs.drop width with
    | [] => none
    | _ :: rest => some (String.ofList content, rest)

/-- The string without escapes behind its mark: a quote with hashes in front of it, and the same
behind it. -/
def readRaw? (cs : List Char) : Option (String × List Char) :=
  let hashes := cs.takeWhile (· == '#')
  match cs.drop hashes.length with
  | '"' :: body =>
    let stops (cs : List Char) : Bool := ('"' :: hashes).isPrefixOf cs
    match Text.readSpelled? stops (·.head?.map fun c => ([c], 1)) 0 body with
    | none => none
    | some (content, width) =>
      if width = body.length then none
      else some (String.ofList content, body.drop (width + hashes.length + 1))
  | _ => none

/-- The single character behind its opening quote, as a text. -/
def readChar? (cs : List Char) : Option (String × List Char) :=
  match piece? cs with
  | none => none
  | some (content, width) =>
    match cs.drop width with
    | '\'' :: rest => some (String.ofList content, rest)
    | _ => none

/-- The text at the front: a string or a single character. -/
def readText? (cs : List Char) : Option (String × List Char) :=
  match cs with
  | '"' :: rest => readString? rest
  | '\'' :: rest => readChar? rest
  | 'r' :: rest => readRaw? rest
  | _ => none

/-! ### Numbers and names -/

/-- Whether a character may be part of a decimal with a point or a power of ten. -/
def isDecimalChar (c : Char) : Bool :=
  c.isDigit || c == 'e' || c == 'E' || c == '.' || c == '+' || c == '-' || c == '_'

/-- Whether a character may be part of an integer. -/
def isIntegerChar (c : Char) : Bool := (Text.hexValue? c).isSome || c == '_'

/-- Whether a character may be part of a name. -/
def isNameChar (c : Char) : Bool := Text.isAlphanumeric c || c == '_'

/-- Whether a character may start a name. -/
def isNameStart (c : Char) : Bool := Text.isAlphabetic c || c == '_'

/-- The names of the types that may follow a number. -/
def typeNames : List String :=
  ["i8", "i16", "i32", "i64", "i128", "u8", "u16", "u32", "u64", "u128", "f32", "f64"]

/-- What follows the name of a number's type. Nothing else that a name has may follow. -/
def skipType? (cs : List Char) : Option (List Char) :=
  let name := cs.takeWhile isNameChar
  if name.isEmpty ∨ typeNames.contains (String.ofList name) then some (cs.drop name.length)
  else none

/-- The integer that digits of a base denote, underscores apart, if 64 bits hold it. -/
def integer? (negative : Bool) (base : Nat) (digits : List Char) : Option Int :=
  if digits.head? = some '_' then none
  else
    match readDigitsIn? base (digits.filter (· != '_')) with
    | none => none
    | some n =>
      let value : Int := if negative then -n else n
      if -0x8000000000000000 ≤ value ∧ value < 0x10000000000000000 then some value else none

/-- The number behind a sign, and what follows it. -/
def readMagnitude? (negative : Bool) (cs : List Char) : Option (Value × List Char) :=
  let decimal := cs.takeWhile isDecimalChar
  let digits := cs.takeWhile isIntegerChar
  let result? :=
    if digits.length < decimal.length then
      let spelling := (if negative then ['-'] else []) ++ decimal.filter (· != '_')
      (Binary64.ofText? (String.ofList spelling)).map fun x =>
        (Value.float x, cs.drop decimal.length)
    else
      let (base, width, digits) :=
        match cs with
        | '0' :: 'x' :: more => (16, 2, more.takeWhile isIntegerChar)
        | '0' :: 'o' :: more => (8, 2, more.takeWhile isIntegerChar)
        | '0' :: 'b' :: more => (2, 2, more.takeWhile isIntegerChar)
        | _ => (10, 0, digits)
      (integer? negative base digits).map fun n =>
        (Value.integer n, cs.drop (width + digits.length))
  match result? with
  | none => none
  | some (v, rest) => (skipType? rest).map fun rest => (v, rest)

/-- The number at the front, and what follows it. -/
def readNumber? (cs : List Char) : Option (Value × List Char) :=
  match cs with
  | '-' :: rest => readMagnitude? true rest
  | '+' :: rest => readMagnitude? false rest
  | _ => readMagnitude? false cs

/-- The name at the front, and what follows it. -/
def readName? (cs : List Char) : Option (String × List Char) :=
  let start :=
    match cs with
    | 'r' :: '#' :: rest => rest
    | _ => cs
  let name := start.takeWhile isNameChar
  if (name.head?.map isNameStart).getD false then some (String.ofList name, start.drop name.length)
  else none

/-- The value of a word that has one. -/
def ofWord? (name : String) : Option Value :=
  match name with
  | "true" => some (.boolean true)
  | "false" => some (.boolean false)
  | "None" => some .absent
  | "inf" | "inff32" | "inff64" => some (.float (.infinity false))
  | "NaN" | "NaNf32" | "NaNf64" => some (.float .nan)
  | _ => none

/-! ### Values -/

/-- Whether a name and a colon are next, so that parentheses hold a table. -/
def startsField (cs : List Char) : Bool :=
  match readName? cs with
  | none => false
  | some (_, rest) =>
    match skipGap? rest with
    | some (':' :: _) => true
    | _ => false

mutual

/-- The value at the front, and what follows it and the gap behind it. -/
def readValue? : (fuel : Nat) → List Char → Option (Value × List Char)
  | 0, _ => none
  | fuel + 1, cs => do
    let cs ← skipGap? cs
    let (v, rest) ←
      match readText? cs with
      | some (s, rest) => some (.text s, rest)
      | none =>
        match cs with
        | '[' :: rest => (readElements? fuel ']' (← skipGap? rest)).map fun r => (.list r.1, r.2)
        | '\x7b' :: rest =>
          (readMembers? fuel '\x7d' (← skipGap? rest)).map fun r => (.table r.1, r.2)
        | '(' :: rest => readRecord? fuel (← skipGap? rest)
        | _ =>
          match readName? cs with
          | none => readNumber? cs
          | some (name, rest) =>
            match ofWord? name, ← skipGap? rest with
            | some v, rest => some (v, rest)
            | none, '(' :: rest =>
              if name = "Some" then
                match readElements? fuel ')' (← skipGap? rest) with
                | some ([v], rest) => some (v, rest)
                | _ => none
              else readRecord? fuel (← skipGap? rest)
            | none, rest => some (.absent, rest)
    some (v, ← skipGap? rest)

/-- What is between parentheses, behind the opening one. -/
def readRecord? : (fuel : Nat) → List Char → Option (Value × List Char)
  | 0, _ => none
  | fuel + 1, cs =>
    match cs with
    | ')' :: rest => some (.absent, rest)
    | _ =>
      if startsField cs then (readMembers? fuel ')' cs).map fun r => (.table r.1, r.2)
      else (readElements? fuel ')' cs).map fun r => (.list r.1, r.2)

/-- The elements of a list up to its end. -/
def readElements? : (fuel : Nat) → (finish : Char) → List Char → Option (List Value × List Char)
  | 0, _, _ => none
  | fuel + 1, finish, cs =>
    if cs.head? = some finish then some ([], cs.drop 1)
    else
      match readValue? fuel cs with
      | some (v, ',' :: rest) =>
        ((skipGap? rest).bind (readElements? fuel finish)).map fun r => (v :: r.1, r.2)
      | some (v, d :: rest) => if d = finish then some ([v], rest) else none
      | _ => none

/-- The members of a table up to its end. Between braces their names are texts. -/
def readMembers? : (fuel : Nat) → (finish : Char) → List Char →
    Option (List (String × Value) × List Char)
  | 0, _, _ => none
  | fuel + 1, finish, cs =>
    if cs.head? = some finish then some ([], cs.drop 1)
    else
      match if finish = ')' then readName? cs else readText? cs with
      | none => none
      | some (name, rest) =>
        match skipGap? rest with
        | some (':' :: rest) =>
          match readValue? fuel rest with
          | some (v, ',' :: rest) =>
            ((skipGap? rest).bind (readMembers? fuel finish)).map fun r => ((name, v) :: r.1, r.2)
          | some (v, d :: rest) => if d = finish then some ([(name, v)], rest) else none
          | _ => none
        | _ => none

end

/-! ### Texts -/

/-- What follows the marks of extensions in front of a value. -/
def skipExtensions? : (fuel : Nat) → List Char → Option (List Char)
  | 0, _ => none
  | fuel + 1, cs =>
    match skipGap? cs with
    | some ('#' :: '!' :: rest) =>
      let body := rest.dropWhile (· != ']')
      if body.isEmpty then none else skipExtensions? fuel (body.drop 1)
    | rest? => rest?

end Ron

/-- The value in a RON text. -/
def Value.ofRonText? (text : String) : Option Value :=
  let cs := text.toList
  match (Ron.skipExtensions? (cs.length + 1) cs).bind (Ron.readValue? (3 * cs.length + 3)) with
  | some (v, []) => some v
  | _ => none

end RecordFilter.Settings
