import RecordFilter.Proofs.Grammar
import RecordFilter.Proofs.Parser.Step

/-!
# What the parser accepts

The parser accepts the sentences of the grammar and nothing else.

* **Completeness** (`reads_group`): the tokens of a derivation take the parser from an empty group
  to the group that the derivation denotes, as long as the limit of nesting is kept. Only the
  number of enclosing groups matters, not what they hold.
* **Soundness** (`Reading.exists_of_reads`): whatever the parser has read is a `Reading`, a
  derivation that breaks off: for each open parenthesis a group that waits for a term, and a part
  of a condition or a complete group at the end.

Since the parser has one state for given tokens and a derivation is determined by what it denotes,
tokens have one derivation at most (`Group.eq_of_tokens_eq`).
-/

namespace RecordFilter

open RecordFilter.Parser

namespace Grammar

/-! ### Completeness -/

/-- The frame of a group that has been read. -/
def Group.frame (g : Group) : Frame := ⟨g.join?, g.exprs.reverse⟩

theorem Group.close_frame (g : Group) : g.frame.close = (Term.parenthesised g).expr := by
  simp [Group.frame, Frame.close, Term.expr]

@[simp]
theorem operand?_token (o : Operand) : operand? o.token = some o.literal := by
  cases o <;> rfl

theorem exists_operand_of_operand? {t : Token} {v : Literal} (h : operand? t = some v) :
    ∃ o : Operand, o.token = t ∧ o.literal = v := by
  unfold operand? at h
  split at h
  · exact ⟨.string _, rfl, Option.some.inj h⟩
  · exact ⟨.number _, rfl, Option.some.inj h⟩
  · exact ⟨.boolean _, rfl, Option.some.inj h⟩
  · simp at h

/-- A condition is read where a term must follow. -/
theorem reads_phrase (p : Phrase) {s : State} (he : s.expectation = .term) : ∃ bare,
    Reads s p.tokens
      ⟨s.current.add (.condition p.toCondition), s.enclosing, .continuation bare⟩ := by
  cases p with
  | bare property nonempty op takesNone =>
    exact ⟨some op, .cons (.property he nonempty) (.cons (.bare rfl takesNone) (.nil _))⟩
  | valued property nonempty op takesValue operand =>
    exact ⟨none, .cons (.property he nonempty) (.cons (.operator rfl takesValue)
      (.cons (.value rfl (operand?_token operand)) (.nil _)))⟩

mutual

/-- A term is read where one must follow, and becomes the last one of the current group. -/
theorem reads_term : ∀ (t : Term) {s : State}, s.expectation = .term →
    s.enclosing.length + t.depth ≤ nestingLimit →
    ∃ bare, Reads s t.tokens ⟨s.current.add t.expr, s.enclosing, .continuation bare⟩
  | .condition p, s, he, _ => reads_phrase p he
  | .parenthesised g, s, he, hdepth => by
    rw [Term.depth] at hdepth
    have hlimit : s.enclosing.length < nestingLimit := by omega
    obtain ⟨bare, hg⟩ := reads_group g (s.current :: s.enclosing)
      (by rw [List.length_cons]; omega)
    refine ⟨none, .cons (.opening he hlimit) (hg.append ?_)⟩
    -- the closing parenthesis adds the finished group to the one that was current before
    rw [← Group.close_frame g]
    exact .cons (.closing rfl rfl) (.nil _)

/-- A group is read from where nothing of it was read. -/
theorem reads_group : ∀ (g : Group) (outer : List Frame),
    outer.length + g.depth ≤ nestingLimit →
    ∃ bare, Reads ⟨⟨none, []⟩, outer, .term⟩ g.tokens ⟨g.frame, outer, .continuation bare⟩
  | .lone t, _, hdepth => reads_term t rfl hdepth
  | .joined join ts, outer, hdepth => reads_terms join ts outer hdepth

/-- Joined terms are read from where nothing of them was read. -/
theorem reads_terms (join : Join) : ∀ (ts : Terms) (outer : List Frame),
    outer.length + ts.depth ≤ nestingLimit →
    ∃ bare, Reads ⟨⟨none, []⟩, outer, .term⟩ (ts.tokens join)
      ⟨⟨some join, ts.exprs.reverse⟩, outer, .continuation bare⟩
  | .pair first second, outer, hdepth => by
    rw [Terms.depth] at hdepth
    obtain ⟨bare, hfirst⟩ := reads_term first (s := ⟨⟨none, []⟩, outer, .term⟩) rfl
      (by simp only; omega)
    obtain ⟨bare', hsecond⟩ := reads_term second
      (s := ⟨⟨some join, [first.expr]⟩, outer, .term⟩) rfl (by simp only; omega)
    exact ⟨bare', hfirst.append (.cons (.join rfl (.inl rfl)) hsecond)⟩
  | .snoc ts t, outer, hdepth => by
    rw [Terms.depth] at hdepth
    obtain ⟨bare, hts⟩ := reads_terms join ts outer (by omega)
    obtain ⟨bare', ht⟩ := reads_term t
      (s := ⟨⟨some join, ts.exprs.reverse⟩, outer, .term⟩) rfl (by simp only; omega)
    have hlast : (Terms.snoc ts t).exprs.reverse = t.expr :: ts.exprs.reverse := by
      simp [Terms.exprs]
    exact ⟨bare', hlast ▸ hts.append (.cons (.join rfl (.inr rfl)) ht)⟩

end

/-- The expression of a group that is read to the end of a text. -/
theorem finish_frame (g : Group) (bare : Option Operator) :
    finish ⟨g.frame, [], .continuation bare⟩ = .ok g.expr := by
  cases g with
  | lone t => rfl
  | joined join ts => simp [finish, Group.frame, Group.join?, Group.exprs, Frame.close, Group.expr]

/-! ### Derivations that break off -/

/-- A group in which a term must follow: nothing of it was read, or a group with a join word
behind it that does not mix with its own. -/
inductive Opened where
  | empty
  | behind (g : Group) (join : Join) (same : g.join? = none ∨ g.join? = some join)

/-- What was read of a text: the groups around, the innermost first, and a group in which a term
must follow, with a part of that term; or a group that may be complete. -/
inductive Reading where
  | term (o : Opened) (outer : List Opened)
  | operator (o : Opened) (outer : List Opened) (property : String) (nonempty : property ≠ "")
  | value (o : Opened) (outer : List Opened) (property : String) (nonempty : property ≠ "")
      (op : Operator) (takesValue : op.takesValue = true)
  | continuation (g : Group) (outer : List Opened) (bare : Option Operator)

namespace Opened

/-- The tokens that were read of a group. -/
def tokens : Opened → List Token
  | empty => []
  | behind g join _ => g.tokens ++ [.join join]

/-- The tokens that were read of groups inside each other, the innermost first. -/
def allTokens : List Opened → List Token
  | [] => []
  | o :: outer => allTokens outer ++ (o.tokens ++ [.opening])

/-- The frame of a group in which a term must follow. -/
def frame : Opened → Frame
  | empty => ⟨none, []⟩
  | behind g join _ => ⟨some join, g.exprs.reverse⟩

/-- The group with the term that follows. -/
def add : Opened → Term → Group
  | empty, t => .lone t
  | behind (.lone first) join _, t => .joined join (.pair first t)
  | behind (.joined join ts) _ _, t => .joined join (.snoc ts t)

theorem tokens_add (o : Opened) (t : Term) : (o.add t).tokens = o.tokens ++ t.tokens := by
  cases o with
  | empty => rfl
  | behind g join same =>
    cases g with
    | lone first => simp [add, tokens, Group.tokens, Terms.tokens]
    | joined join' ts =>
      obtain rfl : join' = join := by simpa [Group.join?] using same
      simp [add, tokens, Group.tokens, Terms.tokens]

theorem frame_add (o : Opened) (t : Term) : (o.add t).frame = o.frame.add t.expr := by
  cases o with
  | empty => rfl
  | behind g join same =>
    cases g with
    | lone first => rfl
    | joined join' ts =>
      obtain rfl : join' = join := by simpa [Group.join?] using same
      simp [add, frame, Group.frame, Group.join?, Group.exprs, Terms.exprs, Frame.add]

end Opened

namespace Reading

/-- The tokens that were read. -/
def tokens : Reading → List Token
  | term o outer => Opened.allTokens outer ++ o.tokens
  | operator o outer property _ => Opened.allTokens outer ++ (o.tokens ++ [.string property])
  | value o outer property _ op _ =>
    Opened.allTokens outer ++ (o.tokens ++ [.string property, .operator op])
  | continuation g outer _ => Opened.allTokens outer ++ g.tokens

/-- The state of the parser. -/
def state : Reading → State
  | term o outer => ⟨o.frame, outer.map Opened.frame, .term⟩
  | operator o outer property _ => ⟨o.frame, outer.map Opened.frame, .operator property⟩
  | value o outer property _ op _ => ⟨o.frame, outer.map Opened.frame, .value property op⟩
  | continuation g outer bare => ⟨g.frame, outer.map Opened.frame, .continuation bare⟩

/-- Nothing was read. -/
def start : Reading := term .empty []

theorem tokens_start : start.tokens = [] := rfl

theorem state_start : start.state = State.start := rfl

/-- A condition that is complete makes the group complete. -/
theorem exists_of_phrase (o : Opened) (outer : List Opened) (p : Phrase)
    (bare : Option Operator) : ∃ r : Reading,
      r.state = ⟨o.frame.add (.condition p.toCondition), outer.map Opened.frame,
        .continuation bare⟩ ∧
      r.tokens = Opened.allTokens outer ++ (o.tokens ++ p.tokens) := by
  refine ⟨continuation (o.add (.condition p)) outer bare, ?_, ?_⟩
  · rw [state, Opened.frame_add, Term.expr]
  · rw [tokens, Opened.tokens_add, Term.tokens]

theorem step_term {o : Opened} {outer : List Opened} {t : Token} {s : State}
    (h : Step (term o outer).state t s) :
    ∃ r : Reading, r.state = s ∧ r.tokens = (term o outer).tokens ++ [t] := by
  cases h with
  | opening =>
    exact ⟨term .empty (o :: outer), rfl, by simp [tokens, Opened.allTokens, Opened.tokens]⟩
  | @property property _ nonempty =>
    exact ⟨operator o outer property nonempty, rfl, by simp [tokens]⟩
  | operator he | bare he | value he | join he | closing he => simp [state] at he

theorem step_operator {o : Opened} {outer : List Opened} {property : String}
    {nonempty : property ≠ ""} {t : Token} {s : State}
    (h : Step (operator o outer property nonempty).state t s) :
    ∃ r : Reading, r.state = s ∧
      r.tokens = (operator o outer property nonempty).tokens ++ [t] := by
  cases h with
  | @operator property' op he takesValue =>
    obtain rfl : property = property' := by simpa [state] using he
    exact ⟨value o outer property nonempty op takesValue, rfl, by simp [tokens]⟩
  | @bare property' op he takesNone =>
    obtain rfl : property = property' := by simpa [state] using he
    obtain ⟨r, hstate, htokens⟩ :=
      exists_of_phrase o outer (.bare property nonempty op takesNone) (some op)
    exact ⟨r, hstate, by rw [htokens]; simp [tokens, Phrase.tokens]⟩
  | opening he | property he | value he | join he | closing he => simp [state] at he

theorem step_value {o : Opened} {outer : List Opened} {property : String}
    {nonempty : property ≠ ""} {op : Operator} {takesValue : op.takesValue = true} {t : Token}
    {s : State} (h : Step (value o outer property nonempty op takesValue).state t s) :
    ∃ r : Reading, r.state = s ∧
      r.tokens = (value o outer property nonempty op takesValue).tokens ++ [t] := by
  cases h with
  | @value property' op' _ v he hoperand =>
    obtain ⟨rfl, rfl⟩ : property = property' ∧ op = op' := by simpa [state] using he
    obtain ⟨operand, rfl, rfl⟩ := exists_operand_of_operand? hoperand
    obtain ⟨r, hstate, htokens⟩ :=
      exists_of_phrase o outer (.valued property nonempty op takesValue operand) none
    exact ⟨r, hstate, by rw [htokens]; simp [tokens, Phrase.tokens]⟩
  | opening he | property he | operator he | bare he | join he | closing he =>
    simp [state] at he

theorem step_continuation {g : Group} {outer : List Opened} {bare : Option Operator} {t : Token}
    {s : State} (h : Step (continuation g outer bare).state t s) :
    ∃ r : Reading, r.state = s ∧ r.tokens = (continuation g outer bare).tokens ++ [t] := by
  cases h with
  | @join _ j _ same =>
    exact ⟨term (.behind g j same) outer, rfl, by simp [tokens, Opened.tokens]⟩
  | closing he houter =>
    cases outer with
    | nil => simp [state] at houter
    | cons o outer =>
      obtain ⟨rfl, rfl⟩ : o.frame = _ ∧ outer.map Opened.frame = _ := by
        simpa [state] using houter
      refine ⟨continuation (o.add (.parenthesised g)) outer none, ?_, ?_⟩
      · rw [state, Opened.frame_add, ← Group.close_frame]
        rfl
      · simp [tokens, Opened.tokens_add, Opened.allTokens, Term.tokens]
  | opening he | property he | operator he | bare he | value he => simp [state] at he

/-- **Readings go on**: what the parser takes behind a reading makes another one. -/
theorem exists_of_step {r : Reading} {t : Token} {s : State} (h : Step r.state t s) :
    ∃ r' : Reading, r'.state = s ∧ r'.tokens = r.tokens ++ [t] := by
  cases r with
  | term o outer => exact step_term h
  | operator o outer property nonempty => exact step_operator h
  | value o outer property nonempty op takesValue => exact step_value h
  | continuation g outer bare => exact step_continuation h

/-- **Soundness**: whatever the parser has read is a reading. -/
theorem exists_of_reads {s : State} {ts : List Token} (h : Reads .start ts s) :
    ∃ r : Reading, r.state = s ∧ r.tokens = ts := by
  -- on the tokens, from any reading on: each of them makes it a longer one
  have hgeneral : ∀ {s' s : State} {ts : List Token}, Reads s' ts s → ∀ r : Reading,
      r.state = s' → ∃ r' : Reading, r'.state = s ∧ r'.tokens = r.tokens ++ ts := by
    intro s' s ts h
    induction h with
    | nil => exact fun r hr => ⟨r, hr, by simp⟩
    | cons hstep _ ih =>
      intro r hr
      obtain ⟨r', hstate, htokens⟩ := exists_of_step (hr ▸ hstep)
      obtain ⟨r'', hstate', htokens'⟩ := ih r' hstate
      exact ⟨r'', hstate', by rw [htokens', htokens, List.append_assoc]; rfl⟩
  obtain ⟨r, hstate, htokens⟩ := hgeneral h start state_start
  exact ⟨r, hstate, by rw [htokens, tokens_start, List.nil_append]⟩

/-- A reading that finishes is a whole group. -/
theorem exists_of_finish {r : Reading} {e : Expr} (h : finish r.state = .ok e) :
    ∃ g : Group, g.tokens = r.tokens ∧ g.expr = e := by
  cases r with
  | continuation g outer bare =>
    cases outer with
    | nil =>
      have hexpr : finish ⟨g.frame, [], .continuation bare⟩ = .ok e := h
      rw [finish_frame] at hexpr
      exact ⟨g, rfl, Except.ok.inj hexpr⟩
    | cons o outer => simp [state, finish] at h
  | term o outer => simp [state, finish] at h
  | operator o outer property nonempty => simp [state, finish] at h
  | value o outer property nonempty op takesValue => simp [state, finish] at h

end Reading

/-! ### Sentences -/

/-- The limit of nesting is kept by what the parser reads. -/
theorem mostOpen_le_of_reads {s s' : State} {ts : List Token} (h : Reads s ts s')
    (hlimit : s.enclosing.length ≤ nestingLimit) :
    mostOpen s.enclosing.length ts ≤ nestingLimit := by
  induction h with
  | nil => exact hlimit
  | cons hstep _ ih =>
    cases hstep with
    -- the only step that opens a parenthesis has checked the limit
    | opening _ hlt => exact ih hlt
    | closing _ houter =>
      rw [houter, List.length_cons] at hlimit ⊢
      simp only [mostOpen, Nat.add_sub_cancel]
      have hrest := ih (by simp only; omega)
      simp only at hrest
      omega
    | property | operator | bare | join => exact ih hlimit
    | value _ hoperand =>
      obtain ⟨operand, rfl, -⟩ := exists_operand_of_operand? hoperand
      rw [mostOpen_operand]
      exact ih hlimit

/-- The tokens that can be read and finished are the sentences, and each of their derivations
denotes what is read. -/
theorem exists_reads_iff {ts : List Token} {e : Expr} :
    (∃ s, Reads .start ts s ∧ finish s = .ok e) ↔
      ∃ g : Group, g.tokens = ts ∧ g.depth ≤ nestingLimit ∧ g.expr = e := by
  constructor
  · rintro ⟨s, hreads, hfinish⟩
    obtain ⟨r, rfl, rfl⟩ := Reading.exists_of_reads hreads
    obtain ⟨g, htokens, hexpr⟩ := Reading.exists_of_finish hfinish
    refine ⟨g, htokens, ?_, hexpr⟩
    have hopen := mostOpen_le_of_reads hreads (Nat.zero_le _)
    rw [← htokens] at hopen
    rw [← g.mostOpen_eq_depth]
    exact hopen
  · rintro ⟨g, rfl, hdepth, rfl⟩
    obtain ⟨bare, hreads⟩ := reads_group g [] (by simpa using hdepth)
    exact ⟨_, hreads, finish_frame g bare⟩

/-- **The grammar is unambiguous**: within the limit of nesting, tokens have one derivation at
most. -/
theorem Group.eq_of_tokens_eq {g g' : Group} (h : g.tokens = g'.tokens)
    (hdepth : g.depth ≤ nestingLimit) : g = g' := by
  have hdepth' : g'.depth ≤ nestingLimit := by
    rwa [← g'.mostOpen_eq_depth, ← h, g.mostOpen_eq_depth]
  obtain ⟨bare, hreads⟩ := reads_group g [] (by simpa using hdepth)
  obtain ⟨bare', hreads'⟩ := reads_group g' [] (by simpa using hdepth')
  have hframe : g.frame = g'.frame := congrArg State.current (hreads.unique (h ▸ hreads'))
  obtain ⟨hjoin, hexprs⟩ : g.join? = g'.join? ∧ g.exprs = g'.exprs := by
    simpa [Group.frame] using hframe
  exact Group.eq_of_exprs_eq (by rw [hjoin]) hexprs

/-- A text parses exactly if its tokens have a derivation within the limit of nesting. -/
theorem parse_eq_ok_iff_derivation {text : String} {lexemes : List Lexeme}
    (h : Token.tokenize text = .ok lexemes) {e : Expr} :
    Expr.parse text = .ok e ↔ ∃ g : Group,
      g.tokens = lexemes.map Lexeme.token ∧ g.depth ≤ nestingLimit ∧ g.expr = e :=
  (parse_eq_ok_iff_reads h).trans exists_reads_iff

theorem isSentence_iff {ts : List Token} :
    IsSentence ts ↔ ∃ g : Group, g.tokens = ts ∧ g.depth ≤ nestingLimit := by
  constructor
  · rintro ⟨⟨g, rfl⟩, hopen⟩
    exact ⟨g, rfl, g.mostOpen_eq_depth ▸ hopen⟩
  · rintro ⟨g, rfl, hdepth⟩
    exact ⟨⟨g, rfl⟩, g.mostOpen_eq_depth.symm ▸ hdepth⟩

/-- **The parser accepts exactly its grammar**: a text with lexemes parses if and only if their
tokens are a sentence. A sentence has one derivation and no other, and the expression is the one
that it denotes. -/
theorem parse_accepts_sentences {text : String} {lexemes : List Lexeme}
    (h : Token.tokenize text = .ok lexemes) :
    ((∃ e, Expr.parse text = .ok e) ↔ IsSentence (lexemes.map Lexeme.token)) ∧
    (IsSentence (lexemes.map Lexeme.token) → ∃ g : Group,
      (g.tokens = lexemes.map Lexeme.token ∧ Expr.parse text = .ok g.expr) ∧
      ∀ g' : Group, g'.tokens = lexemes.map Lexeme.token → g' = g) := by
  constructor
  · rw [isSentence_iff]
    constructor
    · rintro ⟨e, he⟩
      obtain ⟨g, htokens, hdepth, -⟩ := (parse_eq_ok_iff_derivation h).1 he
      exact ⟨g, htokens, hdepth⟩
    · rintro ⟨g, htokens, hdepth⟩
      exact ⟨g.expr, (parse_eq_ok_iff_derivation h).2 ⟨g, htokens, hdepth, rfl⟩⟩
  · rw [isSentence_iff]
    rintro ⟨g, htokens, hdepth⟩
    refine ⟨g, ⟨htokens, (parse_eq_ok_iff_derivation h).2 ⟨g, htokens, hdepth, rfl⟩⟩, ?_⟩
    intro g' htokens'
    exact (Group.eq_of_tokens_eq (htokens.trans htokens'.symm) hdepth).symm

set_option maxRecDepth 2000 in
/-- The two joins in one text, kept apart by parentheses. -/
theorem parse_accepts_sentences_nested : ∃ lexemes,
    Token.tokenize "\"a\" == 1 and (\"b\" exists or \"c\" < 2)" = .ok lexemes ∧
    IsSentence (lexemes.map Lexeme.token) ∧ ∃ g : Group,
      (g.tokens = lexemes.map Lexeme.token ∧
        Expr.parse "\"a\" == 1 and (\"b\" exists or \"c\" < 2)" = .ok g.expr) ∧
      ∀ g' : Group, g'.tokens = lexemes.map Lexeme.token → g' = g := by
  have hlexemes : Token.tokenize "\"a\" == 1 and (\"b\" exists or \"c\" < 2)" = .ok
      [⟨.string "a", 0, 3⟩, ⟨.operator .equal, 4, 6⟩, ⟨.number (.integer 1 (by decide)), 7, 8⟩,
        ⟨.join .and, 9, 12⟩, ⟨.opening, 13, 14⟩, ⟨.string "b", 14, 17⟩,
        ⟨.operator .present, 18, 24⟩, ⟨.join .or, 25, 27⟩, ⟨.string "c", 28, 31⟩,
        ⟨.operator .less, 32, 33⟩, ⟨.number (.integer 2 (by decide)), 34, 35⟩,
        ⟨.closing, 35, 36⟩] := rfl
  let a : Term := .condition
    (.valued "a" (by decide) .equal rfl (.number (.integer 1 (by decide))))
  let b : Term := .condition (.bare "b" (by decide) .present rfl)
  let c : Term := .condition
    (.valued "c" (by decide) .less rfl (.number (.integer 2 (by decide))))
  have hsentence : IsSentence _ :=
    ⟨⟨.joined .and (.pair a (.parenthesised (.joined .or (.pair b c)))), rfl⟩, by decide⟩
  exact ⟨_, hlexemes, hsentence, (parse_accepts_sentences hlexemes).2 hsentence⟩

end Grammar

end RecordFilter
