import RecordFilter.Yaml.Tag

/-!
# Tokens of a YAML text

The pieces of a YAML text. Besides what is written there are tokens that indentation implies: the
starts of block collections and their ends.
-/

namespace RecordFilter.Yaml

/-- A token of a YAML text. -/
inductive Token where
  | versionDirective
  /-- What a handle of tags stands for. -/
  | tagDirective (handle start : String)
  | documentStart
  | documentEnd
  | blockSequenceStart
  | blockMappingStart
  | blockEnd
  /-- The mark of an item of a block sequence. -/
  | blockEntry
  | flowSequenceStart
  | flowSequenceEnd
  | flowMappingStart
  | flowMappingEnd
  /-- The comma between the entries of a flow collection. -/
  | flowEntry
  /-- The start of a key, with or without a mark. -/
  | key
  /-- The start of a value. -/
  | value
  | alias (name : String)
  | anchor (name : String)
  | tag (tag : Tag)
  /-- A scalar, and whether it is plain. -/
  | scalar (plain : Bool) (content : String)
deriving DecidableEq, Repr

namespace Token

/-! ### Directives -/

/-- A number of a version at a cursor, and the cursor behind its digits. -/
def skipVersionPart? (c : Cursor) : Option Cursor :=
  let (digits, behind) := c.read Char.isDigit
  if digits.isEmpty ∨ 9 < digits.length then none else some behind

/-- The directive of a version behind its name: two numbers with a point between them. -/
def readVersion? (c : Cursor) : Option (Token × Cursor) :=
  match skipVersionPart? (c.skipWhile isBlankChar) with
  | none => none
  | some behind =>
    if behind.rest.head? = some '.' then
      (skipVersionPart? behind.next).map fun finish => (versionDirective, finish)
    else none

/-- What a handle stands for, at a cursor: characters of a name, of which the first may be an
exclamation mark. -/
def readTagStart? (c : Cursor) : Option (List Char × Cursor) :=
  match c.rest with
  | [] => none
  | d :: _ => if d == '!' || isTagChar d then readTagChars? isUriChar c else none

/-- The directive of a handle behind its name: the handle, and what it stands for. -/
def readHandle? (c : Cursor) : Option (Token × Cursor) :=
  match Tag.readHandle? (c.skipWhile isBlankChar) with
  | none => none
  | some (handle, behind) =>
    if Tag.isNamed handle ∨ handle = ['!'] then
      match readTagStart? (behind.skipWhile isBlankChar) with
      | none => none
      | some (start, finish) =>
        if endsMark finish.rest then
          some (tagDirective (String.ofList handle) (String.ofList start), finish)
        else none
    else none

/-- The directive at a cursor, and the cursor behind its line. A directive of an unknown name
says something about no handle at all. -/
def readDirective? (c : Cursor) : Option (Token × Cursor) :=
  let (name, behind) := c.next.read isNameChar
  if name.isEmpty ∨ endsMark behind.rest = false then none
  else
    let directive? :=
      match String.ofList name with
      | "YAML" => readVersion? behind
      | "TAG" => readHandle? behind
      | _ => some (tagDirective "" "", behind.skipLine)
    match directive? with
    | none => none
    | some (directive, behind) => behind.finishLine?.map fun finish => (directive, finish.next)

/-! ### Anchors -/

/-- Whether a character may be part of the name of an anchor. -/
def isAnchorChar (c : Char) : Bool :=
  !isBlankChar c && c != '\n' && c != '\ufeff' && !isFlowMark c

/-- The name behind the mark of an anchor or an alias. -/
def readAnchorName? (c : Cursor) : Option (String × Cursor) :=
  let (name, behind) := c.next.read isAnchorChar
  if name.isEmpty then none else some (String.ofList name, behind)

end Token

end RecordFilter.Yaml
