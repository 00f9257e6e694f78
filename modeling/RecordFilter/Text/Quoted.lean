/-!
# Quoted text

Texts between double quotes, as JSON writes them. `quote` is the written form: the quote and
the backslash stand behind a backslash, the characters below U+0020 are escaped, and everything
else stands for itself. `readQuoted?` reads any JSON string from the front of a character list,
so it also accepts the escapes that `quote` never writes (`\/`, `\u0041`, surrogate pairs) and
refuses raw control characters and unpaired surrogate escapes.
-/

namespace RecordFilter.Text

/-! ### Writing -/

/-- The letter that stands behind a backslash for a character with a short escape. -/
def escapeLetter? (c : Char) : Option Char :=
  match c with
  | '"' => some '"'
  | '\\' => some '\\'
  | '\x08' => some 'b'
  | '\t' => some 't'
  | '\n' => some 'n'
  | '\x0c' => some 'f'
  | '\r' => some 'r'
  | _ => none

/-- One hexadecimal digit, in lower case. -/
def hexDigit (n : Nat) : Char :=
  if n < 10 then Char.ofNat (48 + n) else Char.ofNat (87 + n)

/-- The written form of one character inside quotes. -/
def escape (c : Char) : List Char :=
  match escapeLetter? c with
  | some letter => ['\\', letter]
  | none =>
    if c.toNat < 32 then ['\\', 'u', '0', '0', hexDigit (c.toNat / 16), hexDigit (c.toNat % 16)]
    else [c]

/-- The written form of a text, quotes included, as characters. -/
def quoteChars (cs : List Char) : List Char := '"' :: (cs.flatMap escape ++ ['"'])

/-- The written form of a text, quotes included. -/
def quote (text : String) : String := String.ofList (quoteChars text.toList)

/-! ### Reading -/

/-- The character that an escape letter stands for. -/
def unescapeLetter? (letter : Char) : Option Char :=
  match letter with
  | '"' => some '"'
  | '\\' => some '\\'
  | '/' => some '/'
  | 'b' => some '\x08'
  | 't' => some '\t'
  | 'n' => some '\n'
  | 'f' => some '\x0c'
  | 'r' => some '\r'
  | _ => none

/-- The value of a hexadecimal digit of either case. -/
def hexValue? (c : Char) : Option Nat :=
  if '0' ≤ c ∧ c ≤ '9' then some (c.toNat - 48)
  else if 'a' ≤ c ∧ c ≤ 'f' then some (c.toNat - 87)
  else if 'A' ≤ c ∧ c ≤ 'F' then some (c.toNat - 55)
  else none

/-- The 16-bit unit that four hexadecimal digits denote. -/
def unit? (a b c d : Char) : Option Nat := do
  let a ← hexValue? a
  let b ← hexValue? b
  let c ← hexValue? c
  let d ← hexValue? d
  return ((a * 16 + b) * 16 + c) * 16 + d

/-- Whether a unit is the first half of a surrogate pair. -/
def isHighSurrogate (unit : Nat) : Bool := 0xd800 ≤ unit && unit < 0xdc00

/-- Whether a unit is the second half of a surrogate pair. -/
def isLowSurrogate (unit : Nat) : Bool := 0xdc00 ≤ unit && unit < 0xe000

/-- The character that a surrogate pair denotes. -/
def pairChar (high low : Nat) : Char :=
  Char.ofNat (0x10000 + (high - 0xd800) * 0x400 + (low - 0xdc00))

/-- The content up to the closing quote, and the number of characters up to and with it. -/
def readBody? : List Char → Option (List Char × Nat)
  | [] => none
  | '"' :: _ => some ([], 1)
  | '\\' :: 'u' :: a :: b :: c :: d :: rest =>
    match unit? a b c d with
    | none => none
    | some unit =>
      if isHighSurrogate unit then
        match rest with
        | '\\' :: 'u' :: a' :: b' :: c' :: d' :: rest' =>
          match unit? a' b' c' d' with
          | none => none
          | some low =>
            if isLowSurrogate low then
              (readBody? rest').map fun r => (pairChar unit low :: r.1, r.2 + 12)
            else none
        | _ => none
      else if isLowSurrogate unit then none
      else (readBody? rest).map fun r => (Char.ofNat unit :: r.1, r.2 + 6)
  | '\\' :: letter :: rest =>
    match unescapeLetter? letter with
    | none => none
    | some c => (readBody? rest).map fun r => (c :: r.1, r.2 + 2)
  | c :: rest =>
    if c.toNat < 32 then none else (readBody? rest).map fun r => (c :: r.1, r.2 + 1)

/-- The content of the quoted text at the front of a character list, and the number of
characters that this text takes, quotes included. -/
def readQuoted? : List Char → Option (List Char × Nat)
  | '"' :: rest => (readBody? rest).map fun r => (r.1, r.2 + 1)
  | _ => none

end RecordFilter.Text
