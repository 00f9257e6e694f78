import RecordFilter.Yaml.Scalar
import RecordFilter.Yaml.Scalar.Block
import RecordFilter.Yaml.Token

/-!
# Tokens of YAML texts

`Token.ofText?` splits a YAML text into tokens. Columns tell where block collections start and
end, and the tokens that stand for this are added. What starts a key without a mark is known only
at the colon behind it: the lexer remembers where a key may have started, and puts the tokens for
its start there once the colon comes.
-/

namespace RecordFilter.Yaml

/-! ### States -/

/-- A place at which a key without a mark may have started. -/
structure PossibleKey where
  /-- Whether nothing but a key may stand there. -/
  required : Bool
  /-- The number of tokens in front. -/
  position : Nat
  /-- The number of characters in front. -/
  index : Nat
  line : Nat
  column : Nat
deriving DecidableEq, Repr

/-- A level of the indentation. -/
structure Level where
  column : Int
  /-- Whether a block collection has this level, so that its end is a token. A value behind a
  colon has a level of its own, which ends silently. -/
  collection : Bool
deriving DecidableEq, Repr

/-- The number of flow collections that may be open at the same time. -/
def maxFlowDepth : Nat := 255

/-- The greatest distance between the start of a key without a mark and the colon behind it. -/
def maxKeyDistance : Nat := 1024

/-- The state between two tokens. -/
structure Lexer where
  cursor : Cursor
  tokens : Array Token := #[]
  /-- Whether a key without a mark may start here. -/
  keyAllowed : Bool := true
  /-- The place at which a key of the innermost collection may have started. -/
  key? : Option PossibleKey := none
  /-- The same for what is around each open flow collection, from the innermost outwards. -/
  outerKeys : List (Option PossibleKey) := []
  /-- The levels of the indentation, from the innermost outwards. -/
  levels : List Level := []
  /-- For each open flow sequence, whether a pair without braces is open in it. -/
  pairs : List Bool := []
  /-- Whether a pair needs no opening: one has been opened by a brace or by the mark of a key. -/
  pairOpened : Bool := false
  /-- The place at which a colon may touch the value behind it. -/
  adjacentAt : Nat := 0

namespace Lexer

/-- The column of the innermost level, less than all columns if there is none. -/
def indentationOf : List Level → Int
  | [] => -1
  | level :: _ => level.column

/-- The column of the innermost level. -/
def indentation (s : Lexer) : Int := indentationOf s.levels

/-- Whether a flow collection is open. -/
def inFlow (s : Lexer) : Bool := !s.outerKeys.isEmpty

/-- The state behind one more token. -/
def push (token : Token) (s : Lexer) : Lexer := { s with tokens := s.tokens.push token }

/-- The state with one more token at a position. -/
def insert (position : Nat) (token : Token) (s : Lexer) : Lexer :=
  { s with tokens := s.tokens.insertIdxIfInBounds position token }

/-! ### Levels -/

/-- Opens a block collection at a column, unless there is one. Its token comes at a position. -/
def openBlock (column position : Nat) (token : Token) (s : Lexer) : Lexer :=
  if s.inFlow then s
  else
    let levels :=
      match s.levels with
      | [] => []
      | level :: more => if level.column ≤ column && !level.collection then more else level :: more
    if indentationOf levels < column then
      { s.insert position token with levels := ⟨column, true⟩ :: levels }
    else { s with levels }

/-- Closes the levels behind a column. -/
def closeBlocks (column : Int) (s : Lexer) : Lexer :=
  if s.inFlow then s
  else
    let closed := s.levels.takeWhile fun level => column < level.column
    let ends := closed.filter Level.collection
    { s with
      levels := s.levels.drop closed.length
      tokens := ends.foldl (fun tokens _ => tokens.push .blockEnd) s.tokens }

/-- Adds a level for what must be indented more than the block collection around it. -/
def openLevel (s : Lexer) : Lexer :=
  match s.levels with
  | [] => s
  | level :: _ =>
    if level.collection && !s.inFlow then
      { s with levels := ⟨level.column + 1, false⟩ :: s.levels }
    else s

/-- Drops the levels that belong to no block collection. -/
def closeLevels (s : Lexer) : Lexer :=
  { s with levels := s.levels.dropWhile fun level => !level.collection }

/-! ### Keys without a mark -/

/-- Remembers that a key may start here. -/
def saveKey (s : Lexer) : Lexer :=
  if s.keyAllowed then
    let c := s.cursor
    let required :=
      match s.levels with
      | [] => false
      | level :: _ => !s.inFlow && level.collection && level.column == c.column
    { s with key? := some ⟨required, s.tokens.size, c.index, c.line, c.column⟩ }
  else s

/-- Forgets the place at which a key may have started. Where only a key may stand, this is a
failure. -/
def dropKey? (s : Lexer) : Option Lexer :=
  match s.key? with
  | some key => if key.required then none else some { s with key? := none }
  | none => some s

/-- Forgets the place at which a key may have started if it is on another line or too far away.
Within flow collections this does not matter. -/
def dropStaleKey? (s : Lexer) : Option Lexer :=
  match s.key? with
  | some key =>
    let stale := key.line < s.cursor.line || key.index + maxKeyDistance < s.cursor.index
    if stale && !s.inFlow then s.dropKey? else some s
  | none => some s

/-! ### Marks -/

/-- The state behind a mark of one character, and behind the blanks and the comment after it. -/
def passMark? (s : Lexer) : Option Lexer :=
  s.cursor.next.finishMark?.map fun cursor => { s with cursor }

/-- Reads the opening bracket of a flow sequence or the opening brace of a flow mapping. -/
def openFlow? (token : Token) (s : Lexer) : Option Lexer :=
  let s := s.saveKey.openLevel
  if s.outerKeys.length < maxFlowDepth then
    let s := { s with keyAllowed := true, key? := none, outerKeys := s.key? :: s.outerKeys }
    let s :=
      if token = .flowSequenceStart then { s with pairs := false :: s.pairs }
      else { s with pairOpened := true }
    s.passMark?.map (push token)
  else none

/-- Ends the pair without braces that is open in the innermost flow sequence. -/
def closePair (s : Lexer) : Lexer :=
  match s.pairs with
  | true :: more => { s with pairs := false :: more, pairOpened := false }.push .flowMappingEnd
  | _ => s

/-- Reads the closing bracket of a flow sequence or the closing brace of a flow mapping. -/
def closeFlow? (token : Token) (s : Lexer) : Option Lexer := do
  let s ← s.dropKey?
  match s.outerKeys with
  | [] => none
  | key? :: outerKeys =>
    let s := { s with keyAllowed := false, key?, outerKeys }
    let s :=
      if token = .flowSequenceEnd then { s.closePair with pairs := s.pairs.drop 1 } else s
    let s ← s.passMark?
    some ({ s with adjacentAt := s.cursor.index }.push token)

/-- Reads the comma between two entries of a flow collection. -/
def readFlowEntry? (s : Lexer) : Option Lexer := do
  let s ← s.dropKey?
  let s ← { s with keyAllowed := true }.closePair.passMark?
  some (s.push .flowEntry)

/-- Reads the mark of an item of a block sequence. A tab does not separate it from another such
mark. -/
def readBlockEntry? (s : Lexer) : Option Lexer :=
  if s.inFlow || !s.keyAllowed then none
  else do
    let c := s.cursor
    let s := s.openBlock c.column s.tokens.size .blockSequenceStart
    let tab := (c.next.rest.takeWhile isBlankChar).contains '\t'
    let s ← s.passMark?
    let startsEntry :=
      match s.cursor.rest with
      | '-' :: rest => endsMark rest
      | _ => false
    if tab && startsEntry then none
    else
      let ends := s.cursor.rest.head? == some '\n' || startsFlow s.cursor.rest
      let s ← (if ends then s.openLevel else s).dropKey?
      some ({ s with keyAllowed := true }.push .blockEntry)

/-- Reads the mark of a key, which ends with a space or a line break. No tab stands in front of
the key. -/
def readKey? (s : Lexer) : Option Lexer :=
  if !s.inFlow && !s.keyAllowed then none
  else do
    let c := s.cursor
    let s :=
      if s.inFlow then { s with pairOpened := true }
      else s.openBlock c.column s.tokens.size .blockMappingStart
    let s ← s.dropKey?
    let finish := c.next.skipUntilTab
    if finish.index = c.next.index ∨ finish.rest.head? = some '\t' then none
    else some ({ s with keyAllowed := !s.inFlow, cursor := finish }.push .key)

/-- Puts the tokens for the start of a key where it has started. -/
def startKey? (pair : Bool) (line : Nat) (key : PossibleKey) (s : Lexer) : Option Lexer :=
  if pair && key.line < line then none
  else
    let s := s.insert key.position .key
    let s := if pair then s.insert key.position .flowMappingStart else s
    let s := (s.openBlock key.column key.position .blockMappingStart).openLevel
    some { s with key? := none, keyAllowed := false }

/-- Whether a tab alone separates the colon in front from a word or a hyphen. -/
def isBadGap (cs : List Char) : Bool :=
  let blanks := cs.takeWhile isBlankChar
  cs.head? == some '\t' && !blanks.contains ' ' &&
    (((cs.drop blanks.length).head?.map isNameChar).getD false)

/-- Reads the colon in front of a value. A key in a flow sequence opens a pair if none is open. -/
def readValue? (s : Lexer) : Option Lexer := do
  let c := s.cursor
  let pair := !s.pairs.isEmpty && !s.pairOpened
  let s := if pair then { s with pairs := true :: s.pairs.drop 1 } else s
  let behind := c.next
  if isBadGap behind.rest then none
  else
    let finish ← if behind.rest.head? = some '\t' then behind.finishMark? else some behind
    let s := { s with cursor := finish }
    match s.key? with
    | some key => (s.startKey? pair c.line key).map (push .value)
    | none =>
      let s := if pair then s.push .flowMappingStart else s
      if s.inFlow then some ({ s with keyAllowed := false }.push .value)
      else if s.keyAllowed then
        some ((s.openBlock c.column s.tokens.size .blockMappingStart).openLevel.push .value)
      else none

/-! ### Scalars and properties -/

/-- Reads something that a key without a mark may start with. -/
def readWith? (read? : Cursor → Option (Token × Cursor)) (s : Lexer) : Option Lexer :=
  let s := s.saveKey
  (read? s.cursor).map fun r => { s with keyAllowed := false, cursor := r.2 }.push r.1

/-- Reads an anchor or an alias. -/
def readName? (token : String → Token) (s : Lexer) : Option Lexer :=
  s.readWith? fun c => (Token.readAnchorName? c).map fun r => (token r.1, r.2)

/-- Reads a tag. -/
def readTag? (s : Lexer) : Option Lexer :=
  s.readWith? fun c => (Tag.read? s.inFlow c).map fun r => (.tag r.1, r.2)

/-- Reads a plain scalar. If it ends on a line that it does not reach, a key may start there. -/
def readPlain? (s : Lexer) : Option Lexer :=
  let s := s.saveKey.closeLevels
  let indentation := s.indentation + 1
  if s.inFlow && (s.cursor.column : Int) < indentation then none
  else
    (Yaml.readPlain? s.inFlow indentation s.cursor).map fun r =>
      { s with keyAllowed := r.2.fresh, cursor := r.2 }.push (.scalar true (String.ofList r.1))

/-- The state at what follows blanks, comments and line breaks. In block collections a key may
start on another line. -/
def skipGap? (s : Lexer) : Option Lexer :=
  (s.cursor.skipGap? true s.indentation).map fun cursor =>
    { s with
      cursor
      keyAllowed := s.keyAllowed || (!s.inFlow && s.cursor.line < cursor.line) }

/-- Reads a quoted scalar, and what separates it from the next token. A colon may touch it and
the value behind. -/
def readQuoted? (quote : Quote) (s : Lexer) : Option Lexer := do
  let s ← s.readWith? fun c =>
    (quote.read? s.inFlow s.indentation c).map fun r =>
      (.scalar false (String.ofList r.1), r.2)
  let s ← s.skipGap?
  some { s with adjacentAt := s.cursor.index }

/-- Reads a block scalar. -/
def readBlockScalar? (folded : Bool) (s : Lexer) : Option Lexer :=
  let s := s.saveKey.closeLevels
  (Block.read? folded s.indentation s.cursor).map fun r =>
    { s with keyAllowed := true, cursor := r.2 }.push (.scalar false (String.ofList r.1))

/-! ### Documents -/

/-- Closes all block collections in front of a directive or of the boundary of a document. -/
def closeDocument? (s : Lexer) : Option Lexer :=
  (s.closeBlocks (-1)).dropKey?.map fun s => { s with keyAllowed := false }

/-- Reads a directive. -/
def readDirective? (s : Lexer) : Option Lexer := do
  let s ← s.closeDocument?
  (Token.readDirective? s.cursor).map fun r => { s with cursor := r.2 }.push r.1

/-- Reads the start of a document. -/
def readStart? (s : Lexer) : Option Lexer :=
  s.closeDocument?.map fun s => { s with cursor := s.cursor.advance 3 }.push .documentStart

/-- Reads the end of a document, which stands alone on its line. -/
def readEnd? (s : Lexer) : Option Lexer := do
  let s ← s.closeDocument?
  (s.cursor.advance 3).finishLine?.map fun cursor => { s with cursor }.push .documentEnd

/-! ### Texts -/

/-- Reads the colon at the cursor, inside a flow collection and in front of no blank. -/
def readFlowColon? (rest : List Char) (s : Lexer) : Option Lexer :=
  if s.cursor.index = s.adjacentAt then s.readValue?
  else if startsFlow rest then
    if rest.head? = some '[' ∨ rest.head? = some '\x7b' then none else s.readValue?
  else s.readPlain?

/-- Reads what a character at the cursor starts, with other ones behind it. -/
def readFrom? (first : Char) (rest : List Char) (s : Lexer) : Option Lexer :=
  let mark := endsMark rest
  match first with
  | '[' => s.openFlow? .flowSequenceStart
  | '\x7b' => s.openFlow? .flowMappingStart
  | ']' => s.closeFlow? .flowSequenceEnd
  | '\x7d' => s.closeFlow? .flowMappingEnd
  | ',' => s.readFlowEntry?
  | '-' => if mark then s.readBlockEntry? else s.readPlain?
  | '?' => if mark then s.readKey? else s.readPlain?
  | ':' =>
    if mark then s.readValue? else if s.inFlow then s.readFlowColon? rest else s.readPlain?
  | '*' => s.readName? .alias
  | '&' => s.readName? .anchor
  | '!' => s.readTag?
  | '|' => if s.inFlow then s.readPlain? else s.readBlockScalar? false
  | '>' => if s.inFlow then s.readPlain? else s.readBlockScalar? true
  | '\'' => s.readQuoted? .single
  | '"' => s.readQuoted? .double
  | '%' | '@' | '\x60' => none
  | _ => s.readPlain?

/-- The state behind the token at the cursor. -/
def step? (s : Lexer) : Option Lexer :=
  match s.cursor.rest with
  | [] => none
  | first :: rest =>
    if s.cursor.column = 0 ∧ first = '%' then s.readDirective?
    else if s.cursor.atMarker '-' then s.readStart?
    else if s.cursor.atMarker '.' then s.readEnd?
    else if (s.cursor.column : Int) < s.indentation then none
    else s.readFrom? first rest

/-- The tokens of the text, at its end. -/
def finish? (s : Lexer) : Option (List Token) :=
  if s.inFlow then none else (s.closeBlocks (-1)).dropKey?.map fun s => s.tokens.toList

/-- The tokens of the text. -/
def run? : (fuel : Nat) → Lexer → Option (List Token)
  | 0, _ => none
  | fuel + 1, s =>
    match s.skipGap?.bind dropStaleKey? with
    | none => none
    | some s =>
      let s := s.closeBlocks s.cursor.column
      if s.cursor.rest.isEmpty then s.finish?
      else
        match s.step? with
        | none => none
        | some s => run? fuel s

end Lexer

/-- The tokens of a text, unless it is malformed. -/
def Token.ofText? (text : String) : Option (List Token) :=
  let cursor := Cursor.ofText text
  Lexer.run? (cursor.rest.length + 1) { cursor }

end RecordFilter.Yaml
