import RecordFilter.Yaml.Cursor

/-!
# Tags of YAML nodes

A tag names the type of a node. It is spelled with a handle, which stands for the start of the
name, and a suffix, or in full between angle brackets. Directives say what handles stand for;
`Tag.resolve?` puts it in their place. The handle of the tags that every text may use stands for
`Tag.coreStart`.
-/

namespace RecordFilter.Yaml

/-! ### Characters of tags -/

/-- Whether a character may be part of a name in angle brackets, itself or as the start of an
escape. -/
def isUriChar (c : Char) : Bool :=
  c.isAlphanum || c == '-' || "#;/?:@&=+$,_.!~*'()[]%".toList.contains c

/-- Whether a character may be part of the suffix of a tag. -/
def isTagChar (c : Char) : Bool := isUriChar c && !isFlowMark c && c != '!'

/-- The octet that an escape at the front denotes. -/
def escapedOctet? : List Char → Option Nat
  | '%' :: x :: y :: _ =>
    match Text.hexValue? x, Text.hexValue? y with
    | some high, some low => some (high * 16 + low)
    | _, _ => none
  | _ => none

/-- The number of octets of a character whose first octet is given, in the encoding that gives
ASCII characters one octet. -/
def octetCount? (first : Nat) : Option Nat :=
  if first < 0x80 then some 1
  else if first < 0xc0 then none
  else if first < 0xe0 then some 2
  else if first < 0xf0 then some 3
  else if first < 0xf8 then some 4
  else none

/-- The octets that a number of escapes at the front denote, all of them in the range of those
behind the first of a character. -/
def escapedTail? : (count : Nat) → List Char → Option (List Nat)
  | 0, _ => some []
  | count + 1, cs =>
    match escapedOctet? cs with
    | none => none
    | some octet =>
      if 0x80 ≤ octet ∧ octet < 0xc0 then
        (escapedTail? count (cs.drop 3)).map (octet :: ·)
      else none

/-- The character that escapes at the front denote, and how many characters they take. As many
octets as the first one announces are the digits of its code in base 256. -/
def escapedChar? (cs : List Char) : Option (List Char × Nat) :=
  match escapedOctet? cs with
  | none => none
  | some first =>
    match octetCount? first with
    | none => none
    | some count =>
      match escapedTail? (count - 1) (cs.drop 3) with
      | none => none
      | some more =>
        let code := more.foldl (fun n octet => n * 256 + octet) first
        if code.isValidChar then some ([Char.ofNat code], 3 * count) else none

/-- The character at the front of the name of a tag, and how many characters spell it. -/
def tagChar? : List Char → Option (List Char × Nat)
  | [] => none
  | c :: cs => if c == '%' then escapedChar? (c :: cs) else some ([c], 1)

/-- The part of the name of a tag that a class of characters spells. -/
def readTagChars? (inClass : Char → Bool) (c : Cursor) : Option (List Char × Cursor) :=
  c.readSpelled? (fun cs => !(cs.head?.map inClass).getD false) tagChar?

/-! ### Tags -/

/-- A tag: a handle, or what it stands for, and a suffix. -/
structure Tag where
  handle : String
  suffix : String
deriving DecidableEq, Repr

namespace Tag

/-- What the handle of the tags that every text may use stands for. -/
def coreStart : String := "tag:yaml.org,2002:"

/-- Whether a handle is enclosed in exclamation marks, with a name between them or none. -/
def isNamed (handle : List Char) : Bool :=
  2 ≤ handle.length && handle.head? == some '!' && handle.getLast? == some '!'

/-- The handle at a cursor, or the exclamation mark that starts a tag without one, with the name
characters behind it. -/
def readHandle? (c : Cursor) : Option (List Char × Cursor) :=
  if c.rest.head? = some '!' then
    let (name, behind) := c.next.read isNameChar
    if behind.rest.head? = some '!' then some ('!' :: name ++ ['!'], behind.next)
    else some ('!' :: name, behind)
  else none

/-- A tag in full, at the exclamation mark in front of its brackets. -/
def readFull? (c : Cursor) : Option (Tag × Cursor) :=
  match readTagChars? isUriChar (c.advance 2) with
  | none => none
  | some (name, behind) =>
    if behind.rest.head? = some '>' then some (⟨"", String.ofList name⟩, behind.next) else none

/-- A tag with a handle. An exclamation mark alone is a suffix without a handle. -/
def readShort? (c : Cursor) : Option (Tag × Cursor) :=
  match readHandle? c with
  | none => none
  | some (handle, behind) =>
    match readTagChars? isTagChar behind with
    | none => none
    | some (suffix, finish) =>
      if isNamed handle then some (⟨String.ofList handle, String.ofList suffix⟩, finish)
      else
        match handle.drop 1 ++ suffix with
        | [] => some (⟨"", "!"⟩, finish)
        | name => some (⟨"!", String.ofList name⟩, finish)

/-- The tag at a cursor. A blank ends it or, within a flow collection, a mark of these. -/
def read? (flow : Bool) (c : Cursor) : Option (Tag × Cursor) :=
  let tag? := if c.next.rest.head? = some '<' then readFull? c else readShort? c
  tag?.filter fun r => endsMark r.2.rest || (flow && startsFlow r.2.rest)

/-- What directives say that handles stand for. -/
abbrev Handles : Type := List (String × String)

/-- The tag with what its handle stands for in its place. A handle with a name stands for
something; another one may also stand for itself. -/
def resolve? (handles : Handles) (tag : Tag) : Option Tag :=
  match handles.lookup tag.handle with
  | some start => some ⟨start, tag.suffix⟩
  | none =>
    if tag.handle = "!!" then some ⟨coreStart, tag.suffix⟩
    else if isNamed tag.handle.toList then none
    else some tag

end Tag

end RecordFilter.Yaml
