import RecordFilter.Decimal.Reading

/-!
# Styles of YAML scalars

How a text is written as a scalar of a YAML block collection. A text of several lines is written
as a literal block. Another text stands plainly, or between single quotes if it would otherwise
be read as something else than this text: as a null, a boolean or a number, or as the structure
around it. What neither form can hold (control characters, blanks beside line breaks) is written
between double quotes, with escapes.
-/

namespace RecordFilter.Yaml

/-- The form in which a text is written. -/
inductive Style where
  | plain
  | singleQuoted
  | doubleQuoted
  | literal
deriving DecidableEq, Repr

/-! ### Classes of characters -/

/-- Whether a character ends a line. -/
def isBreak (c : Char) : Bool :=
  c == '\n' || c == '\r' || c == '\x85' || c == '\u2028' || c == '\u2029'

/-- Whether a character separates words or lines. -/
def isSpacing (c : Char) : Bool := c == ' ' || c == '\t' || isBreak c

/-- Whether a character can stand in a text without an escape. -/
def isPrintable (c : Char) : Bool :=
  let code := c.toNat
  code == 0xa || (0x20 ≤ code && code ≤ 0x7e) || (0xa0 ≤ code && code ≤ 0xd7ff) ||
    (0xe000 ≤ code && code ≤ 0xfffd && code != 0xfeff) || 0x10000 ≤ code

/-- Whether a scalar that starts with this character is no plain one. -/
def isIndicator (c : Char) : Bool := "#,[]{}&*!|>'\"%@`".toList.contains c

/-- Whether two neighbouring characters are in a relation. -/
def anyNeighbours (related : Char → Char → Bool) : List Char → Bool
  | c :: d :: cs => related c d || anyNeighbours related (d :: cs)
  | _ => false

/-! ### Plain texts that are no texts -/

/-- Whether a text denotes an integer of 128 bits in base 16, 8 or 2, with a mark of the base. -/
def isRadixInteger (cs : List Char) : Bool :=
  let (negative, digits) := readSign cs
  let value? :=
    match digits with
    | '0' :: 'x' :: ds => readDigitsIn? 16 ds
    | '0' :: 'o' :: ds => readDigitsIn? 8 ds
    | '0' :: 'b' :: ds => readDigitsIn? 2 ds
    | _ => none
  match value? with
  | none => false
  | some n => if negative then n ≤ 0x80000000000000000000000000000000
    else n < 0x100000000000000000000000000000000

/-- Whether a text is a row of digits that starts with a needless zero. -/
def hasNeedlessZero (cs : List Char) : Bool :=
  match (readSign cs).2 with
  | '0' :: d :: ds => (d :: ds).all Char.isDigit
  | _ => false

/-- Whether a text denotes a finite decimal. -/
def isFiniteDecimal (text : String) : Bool :=
  match Binary64.ofText? text with
  | some x => x.isFinite
  | none => false

/-- The words for null, for the booleans, for the infinities and for NaN. -/
def reservedWords : List String :=
  ["null", "Null", "NULL", "~", "true", "True", "TRUE", "false", "False", "FALSE",
   ".inf", ".Inf", ".INF", "+.inf", "+.Inf", "+.INF", "-.inf", "-.Inf", "-.INF",
   ".nan", ".NaN", ".NAN"]

/-- Whether a plain scalar might be read as something else than a text. -/
def isAmbiguous (text : String) : Bool :=
  text.isEmpty || reservedWords.contains text || isRadixInteger text.toList ||
    hasNeedlessZero text.toList || isFiniteDecimal text

/-! ### Texts that clash with the structure -/

/-- Whether the first character, or the first three, mean structure at the start of a scalar. -/
def startsWithStructure : List Char → Bool
  | [] => false
  | '-' :: '-' :: '-' :: _ => true
  | '.' :: '.' :: '.' :: _ => true
  | c :: rest => isIndicator c || ((c == '-' || c == '?') && (rest.head?.map isSpacing).getD true)

/-- Whether a colon that ends a key or a hash that starts a comment occurs. -/
def hasInnerStructure (cs : List Char) : Bool :=
  cs.getLast? == some ':' || anyNeighbours (fun c d => c == ':' && isSpacing d) cs ||
    anyNeighbours (fun c d => isSpacing c && d == '#') cs

/-- Whether a text can be written only with escapes. -/
def needsEscapes (cs : List Char) : Bool :=
  !cs.all isPrintable || anyNeighbours (fun c d => c == ' ' && isBreak d) cs

/-- Whether blanks or line breaks start or end a text. -/
def hasOuterSpacing (cs : List Char) : Bool :=
  let outer (c? : Option Char) : Bool := (c?.map fun c => c == ' ' || isBreak c).getD false
  outer cs.head? || outer cs.getLast?

/-- Whether a text can stand between single quotes. -/
def allowsSingleQuotes (cs : List Char) : Bool :=
  !needsEscapes cs && !anyNeighbours (fun c d => isBreak c && d == ' ') cs

/-- Whether a text can stand without quotes. -/
def allowsPlain (cs : List Char) : Bool :=
  allowsSingleQuotes cs && !cs.any isBreak && !hasOuterSpacing cs && !startsWithStructure cs &&
    !hasInnerStructure cs

/-- Whether a text can stand as a literal block. -/
def allowsLiteral (cs : List Char) : Bool := !needsEscapes cs && cs.getLast? != some ' '

/-- The style in which a text is written. -/
def styleOf (text : String) : Style :=
  let cs := text.toList
  if cs.contains '\n' then if allowsLiteral cs then .literal else .doubleQuoted
  else if allowsPlain cs && !isAmbiguous text then .plain
  else if allowsSingleQuotes cs then .singleQuoted
  else .doubleQuoted

end RecordFilter.Yaml
