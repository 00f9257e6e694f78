/-!
# Places in a text

A place is a byte offset together with the line and the column it falls on. Offsets count the
bytes of UTF-8, lines and columns count from one, columns count characters, and only the line
feed starts a line.
-/

namespace RecordFilter.Text

/-- A position between two characters of a text. -/
structure Place where
  /-- The number of bytes in front. -/
  offset : Nat
  /-- One more than the number of line feeds in front. -/
  line : Nat
  /-- One more than the number of characters in front on the same line. -/
  column : Nat
deriving DecidableEq, Repr

namespace Place

/-- The place in front of a text. -/
def start : Place := ⟨0, 1, 1⟩

/-- The place behind a character that stands at a place. -/
def next (p : Place) (c : Char) : Place :=
  if c = '\n' then ⟨p.offset + c.utf8Size, p.line + 1, 1⟩
  else ⟨p.offset + c.utf8Size, p.line, p.column + 1⟩

/-- The first place at or behind an offset when the characters stand at a place; the end of the
characters if none of their places is. -/
def seek (offset : Nat) (p : Place) : List Char → Place
  | [] => p
  | c :: cs => if p.offset < offset then seek offset (p.next c) cs else p

end Place

/-- The place of a byte offset in a text. -/
def locate (text : String) (offset : Nat) : Place := Place.seek offset Place.start text.toList

end RecordFilter.Text
