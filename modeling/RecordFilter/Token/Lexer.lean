import RecordFilter.SyntaxError
import RecordFilter.Text.Letter

/-!
# Lexemes of a text

`tokenize` splits a text into lexemes. Separators stand between them as far as two lexemes would
otherwise be read as one; each lexeme is the longest that starts at its place. A text in which
no token matches at some place has no lexemes at all.
-/

namespace RecordFilter.Token

/-- Whether a character may stand between lexemes and belongs to none. -/
def isSeparator (c : Char) : Bool := c == ' ' || c == '\t' || c == '\r' || c == '\n'

/-- Whether a character may start a bare word. -/
def isWordStart (c : Char) : Bool := Text.isAlphabetic c || c == '_'

/-- Whether a character may continue a bare word. -/
def isWordPart (c : Char) : Bool := Text.isAlphanumeric c || c == '_'

/-- The token that a bare word is. -/
def ofWord (w : String) : Token :=
  match w with
  | "and" => .join .and
  | "or" => .join .or
  | "true" => .boolean true
  | "false" => .boolean false
  | "is" => .operator .is
  | "exists" => .operator .present
  | "missing" => .operator .missing
  | "contain" | "contains" => .operator .contains
  | "notcontain" | "notcontains" => .operator .lacks
  | _ => .word w

/-- The sign at the front of a character list, and the number of characters that it takes. -/
def readSign? : List Char → Option (Token × Nat)
  | '=' :: '=' :: _ => some (.operator .equal, 2)
  | '!' :: '=' :: _ => some (.operator .notEqual, 2)
  | '<' :: '=' :: _ => some (.operator .atMost, 2)
  | '>' :: '=' :: _ => some (.operator .atLeast, 2)
  | '<' :: _ => some (.operator .less, 1)
  | '>' :: _ => some (.operator .greater, 1)
  | '(' :: _ => some (.opening, 1)
  | ')' :: _ => some (.closing, 1)
  | _ => none

/-- The bare word at the front of a character list, and the number of characters that it
takes. -/
def readWord? : List Char → Option (Token × Nat)
  | [] => none
  | c :: cs =>
    if isWordStart c then
      let part := cs.takeWhile isWordPart
      some (ofWord (String.ofList (c :: part)), part.length + 1)
    else none

/-- The token at the front of a character list, and the number of characters that it takes. -/
def read? (cs : List Char) : Option (Token × Nat) :=
  match readSign? cs with
  | some r => some r
  | none =>
    match Text.readQuoted? cs with
    | some (content, width) => some (.string (String.ofList content), width)
    | none =>
      match readNumber? cs with
      | some (n, width) => some (.number n, width)
      | none => readWord? cs

/-- The fault of a character that starts no token. -/
def faultAt (c : Char) : Fault :=
  if c = '"' then .invalidString
  else if c = '-' ∨ c.isDigit then .invalidNumber
  else .unexpectedCharacter c

/-- The number of bytes that characters take. -/
def byteSize : List Char → Nat
  | [] => 0
  | c :: cs => c.utf8Size + byteSize cs

/-- The lexemes of the characters from an offset on, behind those found before, which come last
first; or the offset and the fault of the first character that starts no token. The first `skip`
characters belong to the last lexeme found. -/
def lexFrom (found : List Lexeme) (offset : Nat) :
    (skip : Nat) → List Char → Except (Nat × Fault) (List Lexeme)
  | _, [] => .ok found.reverse
  | skip + 1, c :: cs => lexFrom found (offset + c.utf8Size) skip cs
  | 0, c :: cs =>
    if isSeparator c then lexFrom found (offset + c.utf8Size) 0 cs
    else
      match read? (c :: cs) with
      | none => .error (offset, faultAt c)
      | some (token, width) =>
        let lexeme := ⟨token, offset, offset + byteSize ((c :: cs).take width)⟩
        lexFrom (lexeme :: found) (offset + c.utf8Size) (width - 1) cs

/-- The lexemes of a text. -/
def tokenize (text : String) : Except SyntaxError (List Lexeme) :=
  match lexFrom [] 0 0 text.toList with
  | .ok lexemes => .ok lexemes
  | .error (offset, fault) => .error (.ofOffset text offset fault)

end RecordFilter.Token
