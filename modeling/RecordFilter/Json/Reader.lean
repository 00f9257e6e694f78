import RecordFilter.Json
import RecordFilter.Numeral

/-!
# Reading JSON texts

`Json.ofText?` is the value that a JSON text denotes. The text may hold blanks between its parts
and nothing else around the value. Members of one name are all kept, in their order. At most
`Json.readingDepth` arrays and objects may stand inside each other.
-/

namespace RecordFilter.Json

/-- How many arrays and objects may stand inside each other. -/
def readingDepth : Nat := 127

/-- Whether a character may stand between the parts of a text. -/
def isSpacing (c : Char) : Bool := c == ' ' || c == '\t' || c == '\n' || c == '\r'

/-- What follows the spacing at the front. -/
def skipSpacing (cs : List Char) : List Char := cs.dropWhile isSpacing

/-- The values that are neither arrays nor objects, and what follows them. -/
def readAtom? (cs : List Char) : Option (Json × List Char) :=
  match cs with
  | 'n' :: 'u' :: 'l' :: 'l' :: rest => some (null, rest)
  | 't' :: 'r' :: 'u' :: 'e' :: rest => some (bool true, rest)
  | 'f' :: 'a' :: 'l' :: 's' :: 'e' :: rest => some (bool false, rest)
  | _ =>
    match Text.readQuoted? cs with
    | some (content, width) => some (string (String.ofList content), cs.drop width)
    | none => (readNumber? cs).map fun r => (number r.1, cs.drop r.2)

/-- The name of a member with the colon behind it, and what follows them. -/
def readName? (cs : List Char) : Option (String × List Char) :=
  match Text.readQuoted? cs with
  | none => none
  | some (content, width) =>
    match skipSpacing (cs.drop width) with
    | ':' :: rest => some (String.ofList content, rest)
    | _ => none

mutual

/-- The value at the front, when a number of arrays and objects may still be opened, and what
follows it. A step inside another one has a unit of fuel less; every second step takes a
character at least, so twice the number of characters is enough fuel. -/
def readValue? : (fuel : Nat) → (depth : Nat) → List Char → Option (Json × List Char)
  | 0, _, _ => none
  | fuel + 1, depth, cs =>
    match skipSpacing cs, depth with
    | '[' :: _, 0 => none
    | '\x7b' :: _, 0 => none
    | '[' :: rest, depth + 1 =>
      match skipSpacing rest with
      | ']' :: rest => some (array [], rest)
      | rest => (readElements? fuel depth rest).map fun r => (array r.1, r.2)
    | '\x7b' :: rest, depth + 1 =>
      match skipSpacing rest with
      | '\x7d' :: rest => some (object [], rest)
      | rest => (readMembers? fuel depth rest).map fun r => (object r.1, r.2)
    | cs, _ => readAtom? cs

/-- The elements of an array up to its closing bracket, and what follows it. -/
def readElements? : (fuel : Nat) → (depth : Nat) → List Char → Option (List Json × List Char)
  | 0, _, _ => none
  | fuel + 1, depth, cs =>
    match readValue? fuel depth cs with
    | none => none
    | some (v, rest) =>
      match skipSpacing rest with
      | ']' :: rest => some ([v], rest)
      | ',' :: rest => (readElements? fuel depth rest).map fun r => (v :: r.1, r.2)
      | _ => none

/-- The members of an object up to its closing brace, and what follows it. -/
def readMembers? :
    (fuel : Nat) → (depth : Nat) → List Char → Option (List (String × Json) × List Char)
  | 0, _, _ => none
  | fuel + 1, depth, cs =>
    match readName? (skipSpacing cs) with
    | none => none
    | some (name, rest) =>
      match readValue? fuel depth rest with
      | none => none
      | some (v, rest) =>
        match skipSpacing rest with
        | '\x7d' :: rest => some ([(name, v)], rest)
        | ',' :: rest => (readMembers? fuel depth rest).map fun r => ((name, v) :: r.1, r.2)
        | _ => none

end

/-- The value that a text denotes. -/
def ofText? (text : String) : Option Json :=
  let cs := text.toList
  match readValue? (2 * cs.length + 1) readingDepth cs with
  | some (v, rest) => if (skipSpacing rest).isEmpty then some v else none
  | none => none

end RecordFilter.Json
