import RecordFilter.Yaml.Cursor

/-!
# Reading YAML block scalars

A block scalar is a header and, below it, lines that are indented by the same number of columns
at least. Literal blocks keep their lines, folded ones join them where neither line starts with
a blank. The header may give the indentation and says what happens to the line breaks at the end.
-/

namespace RecordFilter.Yaml

/-- What happens to the line breaks at the end of a block scalar. -/
inductive Chomping where
  /-- All are dropped. -/
  | strip
  /-- One is kept. -/
  | clip
  /-- All are kept. -/
  | keep
deriving DecidableEq, Repr

namespace Block

/-! ### Headers -/

/-- The header of a block scalar. -/
structure Header where
  /-- How many columns the lines are indented, more than what is around them. -/
  indentation? : Option Nat := none
  chomping : Chomping := .clip
deriving DecidableEq, Repr

/-- The treatment of the end that a character denotes. -/
def chomping? (c : Char) : Option Chomping :=
  match c with
  | '-' => some .strip
  | '+' => some .keep
  | _ => none

/-- The number of columns at a cursor, and the cursor behind it. -/
def readIndentation (c : Cursor) : Option Nat × Cursor :=
  match c.rest with
  | [] => (none, c)
  | d :: _ => if d.isDigit then (some (d.toNat - '0'.toNat), c.next) else (none, c)

/-- The treatment of the end at a cursor, and the cursor behind it. -/
def readChomping (c : Cursor) : Option Chomping × Cursor :=
  match c.rest.head?.bind chomping? with
  | some mode => (some mode, c.next)
  | none => (none, c)

/-- The header at a cursor, and the cursor behind its line. The two parts of a header come in any
order. -/
def readHeader? (c : Cursor) : Option (Header × Cursor) :=
  let (header, behind) : Header × Cursor :=
    match readChomping c with
    | (some mode, behind) =>
      let (indentation?, finish) := readIndentation behind
      ({ indentation?, chomping := mode }, finish)
    | (none, _) =>
      match readIndentation c with
      | (none, _) => ({}, c)
      | (some indentation, behind) =>
        let (mode?, finish) := readChomping behind
        ({ indentation? := some indentation, chomping := mode?.getD .clip }, finish)
  if header.indentation? = some 0 then none
  else behind.finishLine?.map fun finish => (header, finish.next)

/-! ### Indentation -/

/-- The cursor behind spaces, up to a column if one is given. -/
def skipSpaces (limit? : Option Nat) (c : Cursor) : Cursor :=
  let spaces := (c.rest.takeWhile (· == ' ')).length
  match limit? with
  | some limit => c.advance (min spaces (limit - c.column))
  | none => c.advance spaces

/-- The cursor behind lines with nothing but spaces and the spaces of the line behind them, and
the greatest column that spaces reach. Up to a given column spaces are indentation. -/
def skipBlankLines (limit? : Option Nat) : (fuel : Nat) → Cursor → Nat × Cursor
  | 0, c => (c.column, c)
  | fuel + 1, c =>
    let behind := skipSpaces limit? c
    if behind.rest.head? = some '\n' then
      let (widest, finish) := skipBlankLines limit? fuel behind.next
      (max behind.column widest, finish)
    else (behind.column, behind)

/-- The cursor behind the indentation of a line, and behind the blank lines in front of it. -/
def skipIndentation (indentation : Nat) (c : Cursor) : Cursor :=
  (skipBlankLines (some indentation) (c.rest.length + 1) c).2

/-! ### Lines -/

/-- What lines of a block are joined to. -/
structure Body where
  content : List Char := []
  /-- Whether a line break ends the last line. -/
  ended : Bool := false
  /-- The number of blank lines behind the last line. -/
  blankLines : Nat := 0
  /-- The cursor behind the lines. -/
  finish : Cursor

/-- The lines of a block behind another one, of which is known whether it started with a blank,
and behind a number of blank lines. -/
def readLines (folded : Bool) (indentation : Nat) :
    (fuel : Nat) → (last? : Option Bool) → (blankLines : Nat) → Cursor → Body
  | 0, last?, blankLines, c => { ended := last?.isSome, blankLines, finish := c }
  | fuel + 1, last?, blankLines, c =>
    if c.column ≠ indentation ∨ c.rest.isEmpty ∨ (indentation = 0 ∧ c.atBoundary) then
      { ended := last?.isSome, blankLines, finish := c }
    else
      let indented := (c.rest.head?.map isBlankChar).getD false
      let lead :=
        match last? with
        | none => List.replicate blankLines '\n'
        | some before =>
          if folded && !before && !indented then foldBreaks (blankLines + 1)
          else List.replicate (blankLines + 1) '\n'
      let (line, behind) := c.read (· != '\n')
      if behind.rest.isEmpty then { content := lead ++ line, finish := behind }
      else
        let start := skipIndentation indentation behind.next
        let body := readLines folded indentation fuel (some indented)
          (start.line - behind.next.line) start
        { body with content := lead ++ line ++ body.content }

/-- The content of a block whose text ends behind the header and a number of blank lines. The
header may not even end with a line break. -/
def contentAtEnd (chomping : Chomping) (ended : Bool) (blankLines : Nat) : List Char :=
  match chomping with
  | .strip => []
  | .clip => if ended then ['\n'] else []
  | .keep => if ended then List.replicate (max 1 blankLines) '\n' else []

/-- The content of a block: its lines and what is left of the line breaks at the end. A last line
of spaces alone that is indented like the others counts as a line break. -/
def contentOf (chomping : Chomping) (indentation : Nat) (body : Body) : List Char :=
  let c := body.finish
  let last := if c.rest.isEmpty ∧ max indentation 1 ≤ c.column then ['\n'] else []
  let breaks := (if body.ended then ['\n'] else []) ++ last
  body.content ++
    match chomping with
    | .strip => []
    | .clip => breaks
    | .keep => breaks ++ List.replicate body.blankLines '\n'

/-- The block scalar at a cursor, inside a collection that is indented by a number of columns,
and the cursor behind it. -/
def read? (folded : Bool) (columns : Int) (c : Cursor) : Option (List Char × Cursor) :=
  match readHeader? c.next with
  | none => none
  | some (header, first) =>
    if first.rest.head? = some '\t' then none
    else
      let (indentation, start) :=
        match header.indentation? with
        | some more =>
          let indentation := columns.toNat + more
          (indentation, skipIndentation indentation first)
        | none =>
          let (widest, start) := skipBlankLines none (first.rest.length + 1) first
          (max widest (columns + 1).toNat, start)
      let blankLines := start.line - first.line
      if start.rest.isEmpty then
        some (contentAtEnd header.chomping (start.line != c.line) blankLines, start)
      else if start.column < indentation ∧ columns < start.column then none
      else
        let body := readLines folded indentation (start.rest.length + 1) none blankLines start
        some (contentOf header.chomping indentation body, body.finish)

end Block

end RecordFilter.Yaml
