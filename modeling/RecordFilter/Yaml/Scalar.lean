import RecordFilter.Yaml.Cursor

/-!
# Reading plain and quoted YAML scalars

Plain scalars and scalars between quotes. Their lines are folded: one line break becomes a blank,
and of several the first is dropped; blanks around a line break are dropped with it. A backslash
at the end of a line between double quotes drops the break as well.
-/

namespace RecordFilter.Yaml

/-! ### Plain scalars -/

/-- Whether a plain scalar cannot go on with these characters: they are at a blank, at a colon
that ends a key or, within a flow collection, at a mark of these. -/
def endsPlainWord (flow : Bool) (cs : List Char) : Bool :=
  match cs with
  | [] => true
  | c :: rest =>
    endsMark (c :: rest) || (c == ':' && (endsMark rest || (flow && startsFlow rest))) ||
      (flow && isFlowMark c)

/-- The word of a plain scalar at the front. -/
def plainWord (flow : Bool) : List Char → List Char
  | [] => []
  | c :: cs => if endsPlainWord flow (c :: cs) then [] else c :: plainWord flow cs

/-- Whether a hyphen in front of a mark of flow collections is next. -/
def startsFlowHyphen (cs : List Char) : Bool :=
  match cs with
  | '-' :: rest => startsFlow rest
  | _ => false

/-- The words of a plain scalar, behind a gap that becomes part of it if a word follows. They are
indented by a number of columns, within a flow collection by any. The cursor that is returned
stands behind the gap that follows the last word. -/
def readWords? (flow : Bool) (indentation : Int) :
    (fuel : Nat) → (gap : List Char) → Cursor → Option (List Char × Cursor)
  | 0, _, _ => none
  | fuel + 1, gap, c =>
    if c.atBoundary ∨ c.rest.head? = some '#' then some ([], c)
    else if flow && startsFlowHyphen c.rest then none
    else
      let word := plainWord flow c.rest
      let behind := c.advance word.length
      let blanks := behind.rest.takeWhile isBlankChar
      match behind.skipGap? false indentation with
      | none => none
      | some start =>
        let breaks := start.line - behind.line
        if word.isEmpty then some ([], start)
        else if start.index = behind.index ∨ (flow = false ∧ (start.column : Int) < indentation)
        then some (gap ++ word, start)
        else
          let gap' := if breaks = 0 then blanks else foldBreaks breaks
          (readWords? flow indentation fuel gap' start).map fun r => (gap ++ word ++ r.1, r.2)

/-- The plain scalar at a cursor. -/
def readPlain? (flow : Bool) (indentation : Int) (c : Cursor) : Option (List Char × Cursor) :=
  match readWords? flow indentation (c.rest.length + 1) [] c with
  | none => none
  | some (content, finish) => if content.isEmpty then none else some (content, finish)

/-! ### Quoted scalars -/

/-- The kinds of quotes around a scalar. -/
inductive Quote where
  | single
  | double
deriving DecidableEq, Repr

/-- The character that an escape letter stands for. -/
def unescapeLetter? (letter : Char) : Option Char :=
  match letter with
  | '0' => some '\x00'
  | 'a' => some '\x07'
  | 'b' => some '\x08'
  | 't' | '\t' => some '\t'
  | 'n' => some '\n'
  | 'v' => some '\x0b'
  | 'f' => some '\x0c'
  | 'r' => some '\r'
  | 'e' => some '\x1b'
  | ' ' => some ' '
  | '"' => some '"'
  | '/' => some '/'
  | '\\' => some '\\'
  | 'N' => some '\x85'
  | '_' => some '\xa0'
  | 'L' => some '\u2028'
  | 'P' => some '\u2029'
  | _ => none

/-- How many hexadecimal digits follow an escape letter. -/
def escapeDigits (letter : Char) : Nat :=
  match letter with
  | 'x' => 2
  | 'u' => 4
  | 'U' => 8
  | _ => 0

namespace Quote

/-- The character at the front between quotes, and how many characters spell it: two single
quotes are one, and between double quotes a backslash starts an escape. -/
def char? : Quote → List Char → Option (List Char × Nat)
  | _, [] => none
  | single, c :: _ => some ([c], if c == '\'' then 2 else 1)
  | double, c :: cs =>
    if c == '\\' then
      match cs with
      | [] => none
      | letter :: more =>
        if escapeDigits letter = 0 then (unescapeLetter? letter).map fun d => ([d], 2)
        else
          (Text.readCode? (escapeDigits letter) more).map fun d =>
            ([d], escapeDigits letter + 2)
    else some ([c], 1)

/-- Whether a line break between these quotes is escaped here. -/
def escapesBreak : Quote → List Char → Bool
  | double, '\\' :: '\n' :: _ => true
  | _, _ => false

/-- Whether the closing quote is here. -/
def closes : Quote → List Char → Bool
  | single, '\'' :: '\'' :: _ => false
  | single, '\'' :: _ => true
  | double, '"' :: _ => true
  | _, _ => false

/-- Whether a word between quotes ends here. -/
def endsWord (quote : Quote) (cs : List Char) : Bool :=
  endsMark cs || quote.closes cs || quote.escapesBreak cs

/-- The cursor behind blanks and line breaks between quotes. No tab stands among the first columns
of a line, as many as the indentation has; `started` tells whether this line is one at which to
look. -/
def skipGap? (indentation : Int) : (started : Bool) → (fuel : Nat) → Cursor → Option Cursor
  | _, 0, _ => none
  | started, fuel + 1, c =>
    match c.rest with
    | [] => some c
    | d :: _ =>
      if d == '\n' then skipGap? indentation true fuel c.next
      else if isBlankChar d then
        if started && d == '\t' && (c.column : Int) < indentation then none
        else skipGap? indentation started fuel c.next
      else some c

/-- The content behind an opening quote, and the cursor behind the closing one. Every line is
indented by a number of columns. -/
def readContent? (quote : Quote) (indentation : Int) :
    (fuel : Nat) → Cursor → Option (List Char × Cursor)
  | 0, _ => none
  | fuel + 1, c =>
    if c.atBoundary ∨ c.rest.isEmpty ∨ (c.column : Int) < indentation then none
    else
      match c.readSpelled? quote.endsWord quote.char? with
      | none => none
      | some (word, behind) =>
        if quote.closes behind.rest then some (word, behind.next)
        else
          let escaped := quote.escapesBreak behind.rest
          let behind := if escaped then behind.advance 2 else behind
          match skipGap? indentation escaped (behind.rest.length + 1) behind with
          | none => none
          | some start =>
            let breaks := start.line - behind.line
            let gap :=
              if escaped then List.replicate breaks '\n'
              else if breaks = 0 then behind.rest.takeWhile isBlankChar
              else foldBreaks breaks
            (readContent? quote indentation fuel start).map fun r => (word ++ gap ++ r.1, r.2)

/-- Whether what follows a quoted scalar on its last line may follow it: the end of the line, the
colon behind a key or a mark that ends an entry of a flow collection. Outside of these a key takes
one line. -/
def mayPrecede (flow : Bool) (lines : Nat) (cs : List Char) : Bool :=
  match cs with
  | [] => true
  | c :: _ =>
    c == '\n' || (c == ':' && (flow || lines = 0)) ||
      (flow && (c == ',' || c == '\x7d' || c == ']'))

/-- The quoted scalar at a cursor, and the cursor behind the blanks and the comment that follow
it on its line. -/
def read? (quote : Quote) (flow : Bool) (indentation : Int) (c : Cursor) :
    Option (List Char × Cursor) :=
  match readContent? quote indentation (c.rest.length + 1) c.next with
  | none => none
  | some (content, behind) =>
    match behind.finishMark? with
    | none => none
    | some finish =>
      if mayPrecede flow (behind.line - c.line) finish.rest then some (content, finish) else none

end Quote

end RecordFilter.Yaml
