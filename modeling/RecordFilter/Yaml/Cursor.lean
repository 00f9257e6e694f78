import RecordFilter.Text.Spelled

/-!
# Cursors in a YAML text

Where a reader stands in a text: the characters to come, and how many characters, lines and
columns precede them. A text ends in front of its first NUL, and all its lines end with a line
feed. Indentation is a comparison of columns. `Cursor.skipGap?` moves over what separates two
parts of a text (blanks, comments, line breaks), `Cursor.finishMark?` over what may follow a mark
on its line.
-/

namespace RecordFilter.Yaml

/-! ### Classes of characters -/

/-- Whether a character separates words on a line. -/
def isBlankChar (c : Char) : Bool := c == ' ' || c == '\t'

/-- Whether a character is a mark of flow collections. -/
def isFlowMark (c : Char) : Bool :=
  c == ',' || c == '[' || c == ']' || c == '\x7b' || c == '\x7d'

/-- Whether a character may be part of the name of a directive or of the handle of a tag. -/
def isNameChar (c : Char) : Bool := c.isAlphanum || c == '_' || c == '-'

/-- Whether the line ends here. -/
def endsLine (cs : List Char) : Bool :=
  match cs with
  | [] => true
  | c :: _ => c == '\n'

/-- Whether what follows a mark ends it: a blank, a line break or the end of the text. -/
def endsMark (cs : List Char) : Bool :=
  match cs with
  | [] => true
  | c :: _ => isBlankChar c || c == '\n'

/-- Whether a mark of flow collections is next. -/
def startsFlow (cs : List Char) : Bool :=
  match cs with
  | [] => false
  | c :: _ => isFlowMark c

/-- What a number of line breaks between two pieces of text becomes: one is a blank, and of
several the first is dropped. -/
def foldBreaks (breaks : Nat) : List Char :=
  if breaks = 1 then [' '] else List.replicate (breaks - 1) '\n'

/-! ### Cursors -/

/-- A place in a text and what follows it. -/
structure Cursor where
  /-- The number of characters in front. -/
  index : Nat := 0
  /-- The number of lines in front. -/
  line : Nat := 0
  /-- The number of characters in front on this line. -/
  column : Nat := 0
  /-- Whether only blanks stand in front on this line. -/
  fresh : Bool := true
  /-- The characters to come. -/
  rest : List Char

namespace Cursor

/-- The cursor in front of a text. -/
def ofText (text : String) : Cursor where
  rest :=
    ((text.replace "\r\n" "\n").replace "\r" "\n").toList.takeWhile (· != '\x00')

/-- The cursor behind the next character. -/
def next (c : Cursor) : Cursor :=
  match c.rest with
  | [] => c
  | d :: cs =>
    if d == '\n' then ⟨c.index + 1, c.line + 1, 0, true, cs⟩
    else ⟨c.index + 1, c.line, c.column + 1, c.fresh && isBlankChar d, cs⟩

/-- The cursor behind a number of characters. -/
def advance (c : Cursor) : Nat → Cursor
  | 0 => c
  | count + 1 => c.next.advance count

/-- The characters up to the first one that is not in a class, and the cursor behind them. -/
def read (inClass : Char → Bool) (c : Cursor) : List Char × Cursor :=
  let cs := c.rest.takeWhile inClass
  (cs, c.advance cs.length)

/-- The text that the characters in front of the first place that stops spell, and the cursor
behind them. -/
def readSpelled? (stops : List Char → Bool) (piece? : List Char → Option (List Char × Nat))
    (c : Cursor) : Option (List Char × Cursor) :=
  (Text.readSpelled? stops piece? 0 c.rest).map fun r => (r.1, c.advance r.2)

/-- The cursor behind all characters of a class. -/
def skipWhile (inClass : Char → Bool) (c : Cursor) : Cursor := (c.read inClass).2

/-- The cursor at the end of the line. -/
def skipLine (c : Cursor) : Cursor := c.skipWhile (· != '\n')

/-- Whether a row of three given characters that ends or starts a document is next. -/
def atMarker (mark : Char) (c : Cursor) : Bool :=
  match c.rest with
  | x :: y :: z :: cs => c.column == 0 && x == mark && y == mark && z == mark && endsMark cs
  | _ => false

/-- Whether the start or the end of a document is next. -/
def atBoundary (c : Cursor) : Bool := c.atMarker '-' || c.atMarker '.'

/-! ### Gaps -/

/-- The cursor behind the blanks of a class, and behind the comment that follows them. A comment
does not touch what stands in front of it. -/
def skipComment? (isGap : Char → Bool) (c : Cursor) : Option Cursor :=
  let (blanks, finish) := c.read isGap
  if finish.rest.head? = some '#' then if blanks.isEmpty then none else some finish.skipLine
  else some finish

/-- The cursor behind the blanks and the comment that may follow a mark on its line. -/
def finishMark? (c : Cursor) : Option Cursor := c.skipComment? isBlankChar

/-- The cursor at the end of the line, if only blanks and a comment precede it. -/
def finishLine? (c : Cursor) : Option Cursor :=
  c.finishMark?.filter fun finish => endsLine finish.rest

/-- The cursor behind blanks, line breaks and, where they are allowed, comments. No tab stands
among the first columns of a line, as many as the indentation has, unless nothing else follows on
the line. -/
def skipGapWithin? (comments : Bool) (indentation : Int) : (fuel : Nat) → Cursor → Option Cursor
  | 0, _ => none
  | fuel + 1, c =>
    match c.rest with
    | [] => some c
    | d :: _ =>
      if d == '\t' && c.fresh && (c.column : Int) < indentation then
        match c.finishLine? with
        | none => none
        | some finish => skipGapWithin? comments indentation fuel finish
      else if isBlankChar d || d == '\n' then skipGapWithin? comments indentation fuel c.next
      else if comments && d == '#' then skipGapWithin? comments indentation fuel c.skipLine
      else some c

/-- The cursor behind blanks, line breaks and, where they are allowed, comments. -/
def skipGap? (comments : Bool) (indentation : Int) (c : Cursor) : Option Cursor :=
  skipGapWithin? comments indentation (c.rest.length + 1) c

/-- The cursor behind spaces, line breaks and comments. -/
def skipUntilTabWithin : (fuel : Nat) → Cursor → Cursor
  | 0, c => c
  | fuel + 1, c =>
    match c.rest with
    | [] => c
    | d :: _ =>
      if d == ' ' || d == '\n' then skipUntilTabWithin fuel c.next
      else if d == '#' then skipUntilTabWithin fuel c.skipLine
      else c

/-- The cursor behind spaces, line breaks and comments. -/
def skipUntilTab (c : Cursor) : Cursor := skipUntilTabWithin c.rest.length c

end Cursor

end RecordFilter.Yaml
