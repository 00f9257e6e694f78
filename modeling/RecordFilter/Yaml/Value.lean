import RecordFilter.Decimal.Reading
import RecordFilter.Yaml.Node

/-!
# Values of YAML nodes

What the nodes of a YAML text denote. A plain scalar without a tag is null, a boolean, an integer
or a real number if it is spelled like one, and a text otherwise; a tag decides how to read it. An
alias denotes the value of the latest node of its name. `Value.ofText?` gives the value of a text.

A scalar that is not what its tag says, and an alias inside the node that it stands for, have the
value `invalid`. In the place of a key it counts for nothing: the next node becomes the key.
-/

namespace RecordFilter.Yaml

/-- The value of a YAML node. -/
inductive Value where
  | null
  | boolean (b : Bool)
  /-- An integer of 64 bits. -/
  | integer (n : Int)
  /-- A real number, as it is spelled. -/
  | real (spelling : String)
  | text (s : String)
  | sequence (items : List Value)
  | mapping (entries : List (Value × Value))
  | invalid

namespace Value

/-! ### Scalars -/

/-- The integer that a plain scalar denotes. -/
def plainInteger? (cs : List Char) : Option Int :=
  match cs with
  | '0' :: 'x' :: digits => readInteger? 16 digits
  | '0' :: 'o' :: digits => readInteger? 8 digits
  | '+' :: digits => readInteger? 10 digits
  | _ => readInteger? 10 cs

/-- The words for the infinities and for NaN. -/
def realWords : List String :=
  [".inf", ".Inf", ".INF", "+.inf", "+.Inf", "+.INF", "-.inf", "-.Inf", "-.INF",
   ".nan", ".NaN", ".NAN"]

/-- Whether a plain scalar denotes a real number: it is a word for one, or has a digit and reads
as a number. -/
def isReal (s : String) : Bool :=
  realWords.contains s || (s.toList.any Char.isDigit && (Binary64.ofText? s).isSome)

/-- The boolean that a plain scalar denotes. -/
def plainBoolean? (s : String) : Option Bool :=
  match s with
  | "true" | "True" | "TRUE" => some true
  | "false" | "False" | "FALSE" => some false
  | _ => none

/-- The value of a plain scalar without a tag. -/
def ofPlain (s : String) : Value :=
  match plainInteger? s.toList with
  | some n => integer n
  | none =>
    if s = "" ∨ s = "~" ∨ s = "null" then null
    else
      match plainBoolean? s with
      | some b => boolean b
      | none => if isReal s then real s else text s

/-- The value of a plain scalar of a core type with this name. -/
def ofCore (type s : String) : Value :=
  match type with
  | "bool" =>
    match plainBoolean? s with
    | some b => boolean b
    | none => invalid
  | "int" =>
    match readInteger? 10 s.toList with
    | some n => integer n
    | none => invalid
  | "float" => if isReal s then real s else invalid
  | "null" => if s = "~" ∨ s = "null" then null else invalid
  | _ => text s

/-- The value of a scalar. Only plain ones may be something else than a text. -/
def ofScalar (tag? : Option Tag) (plain : Bool) (s : String) : Value :=
  if plain then
    match tag? with
    | none => ofPlain s
    | some tag => if tag.handle = Tag.coreStart then ofCore tag.suffix s else text s
  else text s

/-! ### Equality -/

mutual

/-- Whether two values are the same: real numbers if they are spelled in the same way. -/
def same : Value → Value → Bool
  | null, null | invalid, invalid => true
  | boolean a, boolean b => a == b
  | integer n, integer m => n == m
  | real s, real t | text s, text t => s == t
  | sequence vs, sequence ws => sameItems vs ws
  | mapping vs, mapping ws => sameEntries vs ws
  | _, _ => false

/-- Whether two sequences have the same items. -/
def sameItems : List Value → List Value → Bool
  | [], [] => true
  | v :: vs, w :: ws => same v w && sameItems vs ws
  | _, _ => false

/-- Whether two mappings have the same entries in the same order. -/
def sameEntries : List (Value × Value) → List (Value × Value) → Bool
  | [], [] => true
  | (k, v) :: vs, (l, w) :: ws => same k l && same v w && sameEntries vs ws
  | _, _ => false

end

/-- Whether a value occurs twice. -/
def hasTwice : List Value → Bool
  | [] => false
  | v :: vs => vs.any (same v) || hasTwice vs

/-! ### Anchors -/

/-- The names of anchors in the order in which their nodes start, with the values of the nodes
that are complete. -/
abbrev Anchors : Type := List (String × Option Value)

/-- The anchors with one more, if there is a name for it. -/
def Anchors.start (anchor? : Option String) (anchors : Anchors) : Anchors :=
  match anchor? with
  | some name => anchors ++ [(name, none)]
  | none => anchors

/-- The anchors when the node of the one at a place, if it has a name, is complete. -/
def Anchors.finish (anchor? : Option String) (place : Nat) (v : Value) (anchors : Anchors) :
    Anchors :=
  match anchor? with
  | some name => anchors.set place (name, some v)
  | none => anchors

/-- The value of the latest node of a name, or a failure if there is none. -/
def Anchors.value? (name : String) (anchors : Anchors) : Option Value :=
  (anchors.reverse.lookup name).map fun v? => v?.getD invalid

/-! ### Nodes -/

/-- The entries of the nodes of a mapping, keys and values by turns, behind a key if there is one.
Nodes that are invalid are no keys, and a key without a value is dropped. -/
def pairUp : (key? : Option Value) → List Value → List (Value × Value)
  | _, [] => []
  | some key, v :: vs => (key, v) :: pairUp none vs
  | none, invalid :: vs => pairUp none vs
  | none, key :: vs => pairUp (some key) vs

mutual

/-- The value of a node behind anchors, and the anchors behind the node. No mapping has a key
twice. -/
def ofNode? : Node → Anchors → Option (Value × Anchors)
  | .alias name, anchors => (anchors.value? name).map fun v => (v, anchors)
  | .scalar properties plain s, anchors =>
    let v := ofScalar properties.tag? plain s
    let place := anchors.length
    some (v, (anchors.start properties.anchor?).finish properties.anchor? place v)
  | .sequence properties items, anchors =>
    match ofItems? items (anchors.start properties.anchor?) with
    | none => none
    | some (vs, behind) =>
      some (sequence vs, behind.finish properties.anchor? anchors.length (sequence vs))
  | .mapping properties entries, anchors =>
    match ofEntries? entries (anchors.start properties.anchor?) with
    | none => none
    | some (vs, behind) =>
      let pairs := pairUp none vs
      if hasTwice (pairs.map Prod.fst) then none
      else some (mapping pairs, behind.finish properties.anchor? anchors.length (mapping pairs))

/-- The values of the items of a sequence. -/
def ofItems? : List Node → Anchors → Option (List Value × Anchors)
  | [], anchors => some ([], anchors)
  | item :: items, anchors =>
    match ofNode? item anchors with
    | none => none
    | some (v, anchors) => (ofItems? items anchors).map fun r => (v :: r.1, r.2)

/-- The values of the keys and the values of a mapping by turns. -/
def ofEntries? : List (Node × Node) → Anchors → Option (List Value × Anchors)
  | [], anchors => some ([], anchors)
  | (key, item) :: entries, anchors =>
    match ofNode? key anchors with
    | none => none
    | some (k, anchors) =>
      match ofNode? item anchors with
      | none => none
      | some (v, anchors) => (ofEntries? entries anchors).map fun r => (k :: v :: r.1, r.2)

end

/-- The value of the only document of a text, nothing if the text has no document, or a failure
if the text is malformed or has several. -/
def ofText? (text : String) : Option (Option Value) :=
  match Node.ofText? text with
  | none => none
  | some none => some none
  | some (some node) => (ofNode? node []).map fun r => some r.1

end Value

end RecordFilter.Yaml
