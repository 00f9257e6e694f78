import RecordFilter.Text.Quoted

/-!
# Spelled text

Text in which some characters are spelled with several others, as escapes do. `readSpelled?` reads
such a text up to a place where it ends, given how a single piece of it is spelled.
-/

namespace RecordFilter.Text

/-- The text that characters spell in front of the first place that stops, and how many of them
spell it. `piece?` gives the text that is spelled first and the number of characters, at least
one, that spell it; `skip` characters at the front have been read already. -/
def readSpelled? (stops : List Char → Bool) (piece? : List Char → Option (List Char × Nat)) :
    (skip : Nat) → List Char → Option (List Char × Nat)
  | _, [] => some ([], 0)
  | skip + 1, _ :: cs => (readSpelled? stops piece? skip cs).map fun r => (r.1, r.2 + 1)
  | 0, c :: cs =>
    if stops (c :: cs) then some ([], 0)
    else
      match piece? (c :: cs) with
      | none => none
      | some (ds, width) =>
        (readSpelled? stops piece? (width - 1) cs).map fun r => (ds ++ r.1, r.2 + 1)

/-- The character of a code point that so many hexadecimal digits at the front denote. -/
def readCode? (count : Nat) (cs : List Char) : Option Char :=
  let digits := cs.take count
  if digits.length < count then none
  else
    match digits.mapM hexValue? with
    | none => none
    | some values =>
      let code := values.foldl (fun n d => n * 16 + d) 0
      if code.isValidChar then some (Char.ofNat code) else none

end RecordFilter.Text
