import RecordFilter.Proofs.Expr.WellFormed
import RecordFilter.Proofs.Parser.Splicing
import RecordFilter.Proofs.Token.Fragment
import RecordFilter.Proofs.Where.Reachable

/-!
# What raw text becomes

Clauses are written one after another with join words between them, so a clause that is raw text
takes part in the grammar of the whole. If each clause parses by itself, the text of the group is
malformed exactly if a clause has a join word outside parentheses that is not the one between the
clauses, and otherwise the clauses bring their terms into one group
(`Where.parse_text_of_clauses`). Nothing depends on how the clauses were made.
-/

namespace RecordFilter

open Grammar (Group mostOpen)

/-- The tokens of a text, or none if it has no lexemes. -/
def Token.ofText (text : String) : List Token :=
  match tokenize text with
  | .ok lexemes => lexemes.map Lexeme.token
  | .error _ => []

/-- The tokens that a text is written as are its tokens. -/
theorem Token.Writes.ofText_eq {text : String} {ts : List Token} (h : Writes text.toList ts) :
    ofText text = ts := by
  obtain ⟨lexemes, hlexemes, htokens⟩ := h.spells.exists_tokenize
  simp [ofText, hlexemes, htokens]

/-- The members of a group, or none of a condition. -/
def Expr.children : Expr → List Expr
  | condition _ => []
  | group _ children => children

namespace Clause

/-- The join words of a clause outside parentheses. -/
def outerJoins (c : Clause) : List Join := Grammar.outerJoins 0 (Token.ofText c.text)

/-- What a clause that parses brings into a group: its expression if it is a lone term, and its
terms if it has join words outside parentheses. -/
def spliced (c : Clause) : List Expr :=
  match Expr.parse c.text with
  | .ok e => if c.outerJoins = [] then [e] else e.children
  | .error _ => []

/-- The clause is written as what is derived from the group, and brings its terms into others. -/
structure IsDerived (c : Clause) (g : Group) : Prop where
  writes : Token.Writes c.text.toList g.tokens
  outerJoins_eq : c.outerJoins = Grammar.outerJoins 0 g.tokens
  spliced_eq : c.spliced = g.exprs

/-- A clause that parses is derived from a group. -/
theorem exists_isDerived {c : Clause} {e : Expr} (h : Expr.parse c.text = .ok e) :
    ∃ g, c.IsDerived g := by
  obtain ⟨lexemes, hlexemes⟩ := Expr.exists_tokenize_of_parse h
  obtain ⟨g, htokens, -, rfl⟩ := (Grammar.parse_eq_ok_iff_derivation hlexemes).1 h
  have hwrites : Token.Writes c.text.toList g.tokens :=
    htokens ▸ (Token.tokenize_eq_ok_iff.1 hlexemes).writes
  have houter : c.outerJoins = Grammar.outerJoins 0 g.tokens := by
    rw [outerJoins, hwrites.ofText_eq]
  refine ⟨g, hwrites, houter, ?_⟩
  have hjoin := g.head?_outerJoins
  rw [← houter] at hjoin
  rw [spliced, h]
  cases g with
  | lone t =>
    have hnone : c.outerJoins = [] := List.head?_eq_none_iff.1 hjoin
    simp only [hnone, if_true]
    rfl
  | joined join ts =>
    have hsome : c.outerJoins ≠ [] := by
      intro hnone
      simp [hnone, Group.join?] at hjoin
    simp only [if_neg hsome]
    rfl

end Clause

namespace Where

variable {w : Where} {g : Clause → Group}

/-- Two clauses or more stand between join words, and one of them has another join word outside
parentheses. -/
def MixesJoins (w : Where) : Prop :=
  2 ≤ w.clauses.length ∧ ∃ c ∈ w.clauses, ∃ j ∈ c.outerJoins, j ≠ w.join.getD .and

instance : DecidablePred MixesJoins := fun w =>
  inferInstanceAs (Decidable
    (2 ≤ w.clauses.length ∧ ∃ c ∈ w.clauses, ∃ j ∈ c.outerJoins, j ≠ w.join.getD .and))

/-- The join of the group that the text denotes: the one between the clauses, or the first one
that a lone clause has outside parentheses. -/
def splicedJoin (w : Where) : Join :=
  match w.clauses with
  | [c] => c.outerJoins.head?.getD .and
  | _ => w.join.getD .and

theorem exists_isDerived (hparses : ∀ c ∈ w.clauses, ∃ e, Expr.parse c.text = .ok e)
    (hne : w.clauses ≠ []) : ∃ g : Clause → Group, ∀ c ∈ w.clauses, c.IsDerived (g c) := by
  have hderived : ∀ c ∈ w.clauses, ∃ g, c.IsDerived g := by
    intro c hc
    obtain ⟨e, he⟩ := hparses c hc
    exact Clause.exists_isDerived he
  obtain ⟨c, hc⟩ := List.exists_mem_of_ne_nil _ hne
  obtain ⟨g, -⟩ := hderived c hc
  have : Nonempty Group := ⟨g⟩
  choose! g hg using hderived
  exact ⟨g, hg⟩

/-- The text of the group is the tokens of its clauses, put together. -/
theorem writes_text (h : ∀ c ∈ w.clauses, c.IsDerived (g c)) :
    Token.Writes w.text.toList (.opening ::
      (Token.joined (w.join.getD .and) ((w.clauses.map g).map Group.tokens) ++ [.closing])) := by
  have hclauses : List.Forall₂ (fun text ts => Token.Writes text.toList ts)
      (w.clauses.map Clause.text) ((w.clauses.map g).map Group.tokens) := by
    rw [List.map_map, List.forall₂_map_left_iff, List.forall₂_map_right_iff, List.forall₂_same]
    exact fun c hc => (h c hc).writes
  have hinside := (Token.Writes.intercalate (w.join.getD .and) hclauses).parenthesised
  simpa [text, toClause, Clause.text, Clause.texts_eq_map, Token.joinText] using hinside

/-- What is written in the parentheses of the group decides what its text denotes. -/
theorem parse_text_of_writes {inside : Group}
    (hopen : mostOpen 0 (Token.ofText w.text) ≤ nestingLimit)
    (h : Token.Writes w.text.toList (.opening :: (inside.tokens ++ [.closing]))) :
    Expr.parse w.text = .ok (.group (inside.join?.getD .and) inside.exprs) := by
  obtain ⟨lexemes, hlexemes, htokens⟩ := h.spells.exists_tokenize
  have hdepth : (Group.lone (.parenthesised inside)).depth ≤ nestingLimit := by
    rw [← Group.mostOpen_eq_depth]
    rw [h.ofText_eq] at hopen
    exact hopen
  exact (Grammar.parse_eq_ok_iff_derivation hlexemes).2
    ⟨.lone (.parenthesised inside), htokens.symm, hdepth, rfl⟩

/-- A clause with another join word makes the text malformed. -/
theorem parse_text_of_mixesJoins (hg : ∀ c ∈ w.clauses, c.IsDerived (g c)) (h : w.MixesJoins) :
    ∃ e, Expr.parse w.text = .error e := by
  obtain ⟨lexemes, hlexemes, htokens⟩ := (writes_text hg).spells.exists_tokenize
  cases hparse : Expr.parse w.text with
  | error e => exact ⟨e, rfl⟩
  | ok e =>
    exfalso
    obtain ⟨whole, hwhole, -⟩ := (Grammar.parse_eq_ok_iff_derivation hlexemes).1 hparse
    have hclosed : Grammar.Closed
        (Token.joined (w.join.getD .and) ((w.clauses.map g).map Group.tokens)) :=
      Grammar.closed_joined (by simp [Group.closed_tokens])
    obtain ⟨inside, -, hinside⟩ :=
      Group.exists_of_parenthesised hclosed (hwhole.trans htokens)
    obtain ⟨htwo, c, hc, j, hj, hother⟩ := h
    rw [(hg c hc).outerJoins_eq] at hj
    exact hother (Group.join?_eq_of_tokens_eq_joined hinside (by simpa using htwo) (g c)
      (List.mem_map_of_mem hc) j hj)

/-- Two clauses or more without another join word become one group. -/
theorem parse_text_of_uniform (hg : ∀ c ∈ w.clauses, c.IsDerived (g c))
    (hopen : mostOpen 0 (Token.ofText w.text) ≤ nestingLimit) (htwo : 2 ≤ w.clauses.length)
    (h : ∀ c ∈ w.clauses, ∀ j ∈ c.outerJoins, j = w.join.getD .and) :
    Expr.parse w.text = .ok (.group (w.join.getD .and) (w.clauses.flatMap Clause.spliced)) := by
  have hjoin : ∀ g' ∈ w.clauses.map g, g'.join? = none ∨ g'.join? = some (w.join.getD .and) := by
    intro g' hg'
    obtain ⟨c, hc, rfl⟩ := List.mem_map.1 hg'
    rw [← (g c).head?_outerJoins, ← (hg c hc).outerJoins_eq]
    cases houter : c.outerJoins with
    | nil => exact .inl rfl
    | cons j js => exact .inr (by rw [← h c hc j (by simp [houter])]; rfl)
  obtain ⟨inside, htokens, hinside, hexprs⟩ := Group.exists_of_groups (by simpa using htwo) hjoin
  have hspliced : w.clauses.flatMap Clause.spliced = inside.exprs := by
    rw [hexprs, List.flatMap_map]
    exact List.flatMap_congr fun c hc => (hg c hc).spliced_eq
  rw [parse_text_of_writes hopen (htokens ▸ writes_text hg), hinside, hspliced]
  rfl

/-- A lone clause becomes a group of its own terms. -/
theorem parse_text_of_lone {c : Clause} (hc : w.clauses = [c]) {inside : Group}
    (h : c.IsDerived inside) (hopen : mostOpen 0 (Token.ofText w.text) ≤ nestingLimit) :
    Expr.parse w.text = .ok (.group (c.outerJoins.head?.getD .and) c.spliced) := by
  have hwrites := writes_text (w := w) (g := fun _ => inside) (by simpa [hc] using h)
  rw [hc] at hwrites
  have hinside : Token.Writes w.text.toList (.opening :: (inside.tokens ++ [.closing])) := by
    simpa [Token.joined] using hwrites
  rw [parse_text_of_writes hopen hinside, h.outerJoins_eq, inside.head?_outerJoins, h.spliced_eq]

-- the join that was fixed for a lone clause is not written, so it does not count
example : splicedJoin ⟨some .and, [.raw "\"a\" exists or \"b\" exists"]⟩ = .or := by
  decide +kernel

/-- **What the text of a group denotes**, if its clauses parse and the limit of nesting is kept:
nothing if a clause has another join word outside parentheses than the one beside it, and otherwise
one group of what the clauses bring into it, in their order. -/
theorem parse_text_of_clauses (hne : w.clauses ≠ [])
    (hparses : ∀ c ∈ w.clauses, ∃ e, Expr.parse c.text = .ok e)
    (hopen : mostOpen 0 (Token.ofText w.text) ≤ nestingLimit) :
    (w.MixesJoins → ∃ e, Expr.parse w.text = .error e) ∧
    (¬ w.MixesJoins →
      Expr.parse w.text = .ok (.group w.splicedJoin (w.clauses.flatMap Clause.spliced))) := by
  obtain ⟨g, hg⟩ := exists_isDerived hparses hne
  refine ⟨parse_text_of_mixesJoins hg, fun hmixed => ?_⟩
  match hcs : w.clauses with
  | [] => exact absurd hcs hne
  | [c] =>
    rw [parse_text_of_lone hcs (hg c (by simp [hcs])) hopen, splicedJoin, hcs]
    simp
  | first :: second :: rest =>
    have htwo : 2 ≤ w.clauses.length := by simp [hcs]
    have huniform : ∀ c ∈ w.clauses, ∀ j ∈ c.outerJoins, j = w.join.getD .and := by
      intro c hc j hj
      by_contra hother
      exact hmixed ⟨htwo, c, hc, j, hj, hother⟩
    rw [← hcs, parse_text_of_uniform hg hopen htwo huniform, splicedJoin, hcs]

/-- Raw text with the join word of the group brings two terms into it, of which one is a group in
parentheses. In a group with the other join word it makes the text malformed. -/
theorem parse_text_of_clauses_raw : ∃ w w' : Where, w.clauses = w'.clauses ∧
    w.text = "(\"a\" == 1 or \"b\" exists or (\"c\" missing and \"d\" exists))" ∧
    Expr.parse w.text = .ok (.group .or [
      .condition ⟨"a", .equal, some (.number (.integer 1 (by decide)))⟩,
      .condition ⟨"b", .present, none⟩,
      .group .and [.condition ⟨"c", .missing, none⟩, .condition ⟨"d", .present, none⟩]]) ∧
    w'.text = "(\"a\" == 1 and \"b\" exists or (\"c\" missing and \"d\" exists))" ∧
    ∃ e, Expr.parse w'.text = .error e := by
  let v : Literal := .number (.integer 1 (by decide))
  let cs : List Clause := [.draft ⟨some "a", some .equal, some v⟩,
    .raw "\"b\" exists or (\"c\" missing and \"d\" exists)"]
  have hne : cs ≠ [] := List.cons_ne_nil _ _
  have hparses : ∀ c ∈ cs, ∃ e, Expr.parse c.text = .ok e := by
    have hall : ∀ c ∈ cs, (Expr.parse c.text).isOk = true := by decide +kernel
    intro c hc
    cases hparse : Expr.parse c.text with
    | error e => simpa [hparse, Except.isOk, Except.toBool] using hall c hc
    | ok e => exact ⟨e, rfl⟩
  have hspliced : cs.flatMap Clause.spliced = [.condition ⟨"a", .equal, some v⟩,
      .condition ⟨"b", .present, none⟩,
      .group .and [.condition ⟨"c", .missing, none⟩, .condition ⟨"d", .present, none⟩]] := by
    decide +kernel
  obtain ⟨-, huniform⟩ :=
    parse_text_of_clauses (w := ⟨some .or, cs⟩) hne hparses (by decide +kernel)
  obtain ⟨hmixed, -⟩ :=
    parse_text_of_clauses (w := ⟨some .and, cs⟩) hne hparses (by decide +kernel)
  refine ⟨⟨some .or, cs⟩, ⟨some .and, cs⟩, rfl, by decide +kernel, ?_, by decide +kernel, ?_⟩
  · rw [huniform (by decide +kernel), hspliced]
    rfl
  · exact hmixed (by decide +kernel)

end Where

end RecordFilter
