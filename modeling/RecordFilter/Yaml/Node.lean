import RecordFilter.Yaml.Token.Lexer

/-!
# YAML nodes

The tree of a YAML text: scalars, sequences and mappings, with their anchors and tags, and the
aliases that stand for them. `Node.ofText?` reads a text with at most one document. A node that
is missing where there should be one is the plain scalar for null.
-/

namespace RecordFilter.Yaml

/-- What stands in front of a node. -/
structure Properties where
  /-- The name by which aliases call the node. -/
  anchor? : Option String := none
  tag? : Option Tag := none
deriving DecidableEq, Repr

/-- A node of a YAML text. -/
inductive Node where
  /-- The latest node of which the anchor has this name. -/
  | alias (name : String)
  /-- A scalar, and whether it is plain. -/
  | scalar (properties : Properties) (plain : Bool) (content : String)
  | sequence (properties : Properties) (items : List Node)
  | mapping (properties : Properties) (entries : List (Node × Node))

namespace Node

/-- The plain scalar that a missing node is. -/
def missing : Node := .scalar {} true "~"

/-- Whether a token that ends a node before it starts is next. -/
def endsBefore (stops tokens : List Token) : Bool :=
  match tokens with
  | [] => false
  | token :: _ => stops.contains token

/-- The properties at the front. They come in any order, and handles of tags are resolved. -/
def readProperties? (handles : Tag.Handles) : List Token → Option (Properties × List Token)
  | .anchor name :: .tag tag :: tokens | .tag tag :: .anchor name :: tokens =>
    (tag.resolve? handles).map fun tag => (⟨name, tag⟩, tokens)
  | .anchor name :: tokens => some (⟨name, none⟩, tokens)
  | .tag tag :: tokens => (tag.resolve? handles).map fun tag => (⟨none, tag⟩, tokens)
  | tokens => some ({}, tokens)

/-! ### Collections

Every reader gets the tokens behind the start of its collection and returns those behind its end.
An item of a block mapping may be a sequence without a start: its marks stand in the column of the
keys, and it ends in front of the first token that is no such mark.
-/

mutual

/-- The node at the front. Where blocks are allowed, it may be a block collection. -/
def readNode? (handles : Tag.Handles) :
    (fuel : Nat) → (block indentless : Bool) → List Token → Option (Node × List Token)
  | 0, _, _, _ => none
  | _ + 1, _, _, .alias name :: tokens => some (.alias name, tokens)
  | fuel + 1, block, indentless, tokens =>
    match readProperties? handles tokens with
    | none => none
    | some (properties, tokens) =>
      match tokens with
      | .scalar plain content :: tokens => some (.scalar properties plain content, tokens)
      | .flowSequenceStart :: tokens =>
        (readFlowItems? handles fuel true tokens).map fun r => (.sequence properties r.1, r.2)
      | .flowMappingStart :: tokens =>
        (readFlowEntries? handles fuel true tokens).map fun r => (.mapping properties r.1, r.2)
      | token :: behind =>
        if indentless && token = .blockEntry then
          (readMarkedItems? handles fuel tokens).map fun r => (.sequence properties r.1, r.2)
        else if block && token = .blockSequenceStart then
          (readBlockItems? handles fuel behind).map fun r => (.sequence properties r.1, r.2)
        else if block && token = .blockMappingStart then
          (readBlockEntries? handles fuel behind).map fun r => (.mapping properties r.1, r.2)
        else if properties = {} then none
        else some (.scalar properties true "", tokens)
      | [] => if properties = {} then none else some (.scalar properties true "", [])

/-- The node at the front, which is missing if a token that ends it is there instead. -/
def readUnless? (handles : Tag.Handles) :
    (fuel : Nat) → (stops : List Token) → (block indentless : Bool) → List Token →
      Option (Node × List Token)
  | 0, _, _, _, _ => none
  | fuel + 1, stops, block, indentless, tokens =>
    if endsBefore stops tokens then some (missing, tokens)
    else readNode? handles fuel block indentless tokens

/-- The items of a block sequence. -/
def readBlockItems? (handles : Tag.Handles) :
    (fuel : Nat) → List Token → Option (List Node × List Token)
  | 0, _ => none
  | fuel + 1, tokens =>
    match tokens with
    | .blockEnd :: tokens => some ([], tokens)
    | .blockEntry :: tokens =>
      match readUnless? handles fuel [.blockEntry, .blockEnd] true false tokens with
      | none => none
      | some (item, tokens) =>
        (readBlockItems? handles fuel tokens).map fun r => (item :: r.1, r.2)
    | _ => none

/-- The items of a block sequence without a start. -/
def readMarkedItems? (handles : Tag.Handles) :
    (fuel : Nat) → List Token → Option (List Node × List Token)
  | 0, _ => none
  | fuel + 1, tokens =>
    match tokens with
    | .blockEntry :: tokens =>
      match readUnless? handles fuel [.blockEntry, .key, .value, .blockEnd] true false tokens with
      | none => none
      | some (item, tokens) =>
        (readMarkedItems? handles fuel tokens).map fun r => (item :: r.1, r.2)
    | tokens => some ([], tokens)

/-- The value behind a key of a block mapping. -/
def readBlockValue? (handles : Tag.Handles) :
    (fuel : Nat) → List Token → Option (Node × List Token)
  | 0, _ => none
  | fuel + 1, tokens =>
    match tokens with
    | .value :: tokens => readUnless? handles fuel [.key, .value, .blockEnd] true true tokens
    | tokens => some (missing, tokens)

/-- The entries of a block mapping. -/
def readBlockEntries? (handles : Tag.Handles) :
    (fuel : Nat) → List Token → Option (List (Node × Node) × List Token)
  | 0, _ => none
  | fuel + 1, tokens =>
    let key? :=
      match tokens with
      | .key :: tokens => readUnless? handles fuel [.key, .value, .blockEnd] true true tokens
      | .value :: _ => some (missing, tokens)
      | _ => none
    match tokens, key? with
    | .blockEnd :: tokens, _ => some ([], tokens)
    | _, none => none
    | _, some (key, tokens) =>
      match readBlockValue? handles fuel tokens with
      | none => none
      | some (value, tokens) =>
        (readBlockEntries? handles fuel tokens).map fun r => ((key, value) :: r.1, r.2)

/-- The value behind a key inside a flow collection, of which the end is given. -/
def readFlowValue? (handles : Tag.Handles) :
    (fuel : Nat) → (finish : Token) → List Token → Option (Node × List Token)
  | 0, _, _ => none
  | fuel + 1, finish, tokens =>
    match tokens with
    | .value :: tokens => readUnless? handles fuel [.flowEntry, finish] false false tokens
    | tokens => some (missing, tokens)

/-- The entry of a flow mapping at the front. A node without the mark of a key or a value has no
value. -/
def readFlowEntry? (handles : Tag.Handles) :
    (fuel : Nat) → List Token → Option ((Node × Node) × List Token)
  | 0, _ => none
  | fuel + 1, tokens =>
    let (marked, key?) :=
      match tokens with
      | .key :: tokens =>
        (true, readUnless? handles fuel [.value, .flowEntry, .flowMappingEnd] false false tokens)
      | .value :: _ => (true, some (missing, tokens))
      | tokens => (false, readNode? handles fuel false false tokens)
    match key? with
    | none => none
    | some (key, tokens) =>
      if marked then
        (readFlowValue? handles fuel .flowMappingEnd tokens).map fun r => ((key, r.1), r.2)
      else some ((key, missing), tokens)

/-- The entries of a flow mapping. Commas stand between them, and may stand behind the last. -/
def readFlowEntries? (handles : Tag.Handles) :
    (fuel : Nat) → (first : Bool) → List Token → Option (List (Node × Node) × List Token)
  | 0, _, _ => none
  | fuel + 1, first, tokens =>
    match tokens with
    | .flowMappingEnd :: tokens => some ([], tokens)
    | .flowEntry :: .flowMappingEnd :: tokens => if first then none else some ([], tokens)
    | tokens =>
      if !first && !endsBefore [.flowEntry] tokens then none
      else
        match readFlowEntry? handles fuel (if first then tokens else tokens.drop 1) with
        | none => none
        | some (entry, tokens) =>
          (readFlowEntries? handles fuel false tokens).map fun r => (entry :: r.1, r.2)

/-- The item of a flow sequence at the front. The mark of a key starts a mapping of one entry; if
its key is missing, the token that ended it is passed. -/
def readFlowItem? (handles : Tag.Handles) :
    (fuel : Nat) → List Token → Option (Node × List Token)
  | 0, _ => none
  | fuel + 1, tokens =>
    match tokens with
    | .key :: tokens =>
      let stops := [.value, .flowEntry, .flowSequenceEnd]
      match readUnless? handles fuel stops false false tokens with
      | none => none
      | some (key, behind) =>
        let behind := if endsBefore stops tokens then behind.drop 1 else behind
        (readFlowValue? handles fuel .flowSequenceEnd behind).map fun r =>
          (.mapping {} [(key, r.1)], r.2)
    | tokens => readNode? handles fuel false false tokens

/-- The items of a flow sequence. Commas stand between them, and may stand behind the last. -/
def readFlowItems? (handles : Tag.Handles) :
    (fuel : Nat) → (first : Bool) → List Token → Option (List Node × List Token)
  | 0, _, _ => none
  | fuel + 1, first, tokens =>
    match tokens with
    | .flowSequenceEnd :: tokens => some ([], tokens)
    | .flowEntry :: .flowSequenceEnd :: tokens => if first then none else some ([], tokens)
    | tokens =>
      if !first && !endsBefore [.flowEntry] tokens then none
      else
        match readFlowItem? handles fuel (if first then tokens else tokens.drop 1) with
        | none => none
        | some (item, tokens) =>
          (readFlowItems? handles fuel false tokens).map fun r => (item :: r.1, r.2)

end

/-! ### Documents -/

/-- Whether a token is a directive. -/
def isDirective : Token → Bool
  | .versionDirective | .tagDirective _ _ => true
  | _ => false

/-- What the directives in front of a document say about the handles of tags. Only the last one
counts, and the version is given once at most. -/
def handlesOf? (directives : List Token) : Option Tag.Handles :=
  if 1 < directives.count .versionDirective then none
  else
    match directives.getLast? with
    | some (.tagDirective handle start) => some [(handle, start)]
    | _ => some []

/-- The node of a document whose start has a mark. -/
def readMarked? (handles : Tag.Handles) (fuel : Nat) (tokens : List Token) :
    Option (Node × List Token) :=
  match tokens with
  | [] => some (missing, tokens)
  | token :: _ =>
    if isDirective token ∨ token = .documentStart ∨ token = .documentEnd then
      some (missing, tokens)
    else readNode? handles fuel true false tokens

/-- The node of a document, and the tokens behind it. -/
def readDocument? (fuel : Nat) (tokens : List Token) : Option (Node × List Token) :=
  let directives := tokens.takeWhile isDirective
  match handlesOf? directives with
  | none => none
  | some handles =>
    match tokens.drop directives.length with
    | .documentStart :: behind => readMarked? handles fuel behind
    | tokens => if directives.isEmpty then readNode? handles fuel true false tokens else none

/-- The node of the only document among tokens, nothing if there is no document. -/
def ofTokens? (tokens : List Token) : Option (Option Node) :=
  match tokens.dropWhile (· == .documentEnd) with
  | [] => some none
  | tokens =>
    match readDocument? (4 * tokens.length + 4) tokens with
    | none => none
    | some (node, behind) => if behind.all (· == .documentEnd) then some (some node) else none

/-- The node of the only document of a text, nothing if the text has no document, or a failure if
the text is malformed or has several. -/
def ofText? (text : String) : Option (Option Node) := (Token.ofText? text).bind ofTokens?

end Node

end RecordFilter.Yaml
