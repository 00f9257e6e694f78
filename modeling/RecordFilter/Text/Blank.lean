/-!
# Blank text

The characters of the Unicode property White_Space, as closed ranges of code points. An
expression made of them alone counts as empty. Between tokens the filter language allows only
four of them, so a text may hold white space that the lexer rejects.
-/

namespace RecordFilter.Text

/-- The code points of White_Space as closed ranges, ascending and apart. -/
def blankRanges : List (Nat × Nat) :=
  [(0x9, 0xd), (0x20, 0x20), (0x85, 0x85), (0xa0, 0xa0), (0x1680, 0x1680), (0x2000, 0x200a),
   (0x2028, 0x2029), (0x202f, 0x202f), (0x205f, 0x205f), (0x3000, 0x3000)]

/-- Whether a code point lies in one of the closed ranges. -/
def inRanges (ranges : List (Nat × Nat)) (code : Nat) : Bool :=
  ranges.any fun r => r.1 ≤ code && code ≤ r.2

/-- Whether a character is white space. -/
def isBlank (c : Char) : Bool := inRanges blankRanges c.toNat

/-- Whether a text has no character besides white space. -/
def isAllBlank (text : String) : Bool := text.toList.all isBlank

end RecordFilter.Text
