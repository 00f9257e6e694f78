import RecordFilter.Proofs.Expr.RoundTrip

/-!
# Groups spliced into a group

Where the tokens of groups stand one after another with join words between them, nothing marks where
one ends and the next starts. So their terms are terms of one group, if all join words outside
parentheses are the same (`Group.exists_of_groups`), and otherwise there is no such group
(`Group.join?_eq_of_tokens_eq_joined`). `outerJoins` lists the join words outside parentheses; for
what a group derives these are known, whatever stands behind it, because it closes the parentheses
that it opens (`Closed`).
-/

namespace RecordFilter.Grammar

/-! ### The terms of a group -/

/-- Joined terms as a list. -/
def Terms.toList : Terms → List Term
  | .pair first second => [first, second]
  | .snoc ts t => ts.toList ++ [t]

/-- The terms of a group. -/
def Group.terms : Group → List Term
  | .lone t => [t]
  | .joined _ ts => ts.toList

theorem Terms.toList_ne_nil (ts : Terms) : ts.toList ≠ [] := by
  cases ts <;> simp [toList]

theorem Group.terms_ne_nil (g : Group) : g.terms ≠ [] := by
  cases g with
  | lone t => simp [terms]
  | joined join ts => exact ts.toList_ne_nil

theorem Terms.map_expr_toList (ts : Terms) : ts.toList.map Term.expr = ts.exprs := by
  fun_induction Terms.toList ts with
  | case1 first second => rfl
  | case2 ts t ih => rw [List.map_append, ih, exprs, List.map_singleton]

theorem Terms.two_le_length_toList (ts : Terms) : 2 ≤ ts.toList.length := by
  rw [← List.length_map Term.expr, ts.map_expr_toList]
  exact ts.two_le_length_exprs

theorem Group.map_expr_terms (g : Group) : g.terms.map Term.expr = g.exprs := by
  cases g with
  | lone t => rfl
  | joined join ts => exact ts.map_expr_toList

/-! ### Joined tokens -/

theorem joined_append (join : Join) {tss : List (List Token)} (h : tss ≠ [])
    (tss' : List (List Token)) :
    Token.joined join (tss ++ tss') =
      Token.joined join tss ++ tss'.flatMap fun ts => .join join :: ts := by
  cases tss with
  | nil => exact absurd rfl h
  | cons ts tss => simp [joined_cons]

/-- Pieces with a join word in front of each may be joined tokens or what these are made of. -/
theorem flatMap_map_joined (join : Join) {tsss : List (List (List Token))}
    (h : ∀ tss ∈ tsss, tss ≠ []) :
    (tsss.map (Token.joined join)).flatMap (fun ts => .join join :: ts) =
      tsss.flatten.flatMap fun ts => .join join :: ts := by
  induction tsss with
  | nil => rfl
  | cons tss tsss ih =>
    obtain ⟨ts, tss, rfl⟩ := List.exists_cons_of_ne_nil (h tss List.mem_cons_self)
    have hrest := ih fun tss' hmem => h tss' (List.mem_cons_of_mem _ hmem)
    simp [joined_cons, hrest]

/-- Joined tokens of joined tokens are joined tokens. -/
theorem joined_map_joined (join : Join) {tsss : List (List (List Token))}
    (h : ∀ tss ∈ tsss, tss ≠ []) :
    Token.joined join (tsss.map (Token.joined join)) = Token.joined join tsss.flatten := by
  cases tsss with
  | nil => rfl
  | cons tss tsss =>
    have hrest := flatMap_map_joined join fun tss' hmem => h tss' (List.mem_cons_of_mem _ hmem)
    rw [List.map_cons, joined_cons, hrest, List.flatten_cons,
      joined_append join (h tss List.mem_cons_self)]

theorem Terms.tokens_eq_joined (join : Join) (ts : Terms) :
    ts.tokens join = Token.joined join (ts.toList.map Term.tokens) := by
  fun_induction Terms.toList ts with
  | case1 first second => simp [tokens, joined_cons]
  | case2 ts t ih =>
    have hne : ts.toList.map Term.tokens ≠ [] := by simpa using ts.toList_ne_nil
    rw [tokens, List.map_append, joined_append join hne, ih]
    simp

/-- The tokens of a group are those of its terms, with its join word between them. Any join word
will do for a lone term. -/
theorem Group.tokens_eq_joined {join : Join} {g : Group}
    (h : g.join? = none ∨ g.join? = some join) :
    g.tokens = Token.joined join (g.terms.map Term.tokens) := by
  cases g with
  | lone t => simp [tokens, terms, joined_cons]
  | joined join' ts =>
    obtain rfl : join' = join := by simpa [join?] using h
    exact ts.tokens_eq_joined join'

/-- All terms of some groups have the tokens of these groups, with a join word between them. -/
theorem Group.tokens_ofTerms_flatMap {join : Join} {gs : List Group} {t : Term}
    {rest : List Term} (hjoin : ∀ g ∈ gs, g.join? = none ∨ g.join? = some join)
    (hterms : gs.flatMap Group.terms = t :: rest) :
    (Group.ofTerms join t rest).tokens = Token.joined join (gs.map Group.tokens) := by
  have hgroups : gs.map Group.tokens =
      (gs.map fun g => g.terms.map Term.tokens).map (Token.joined join) := by
    rw [List.map_map]
    exact List.map_congr_left fun g hg => Group.tokens_eq_joined (hjoin g hg)
  have hne : ∀ tss ∈ gs.map fun g => g.terms.map Term.tokens, tss ≠ [] := by
    simp [Group.terms_ne_nil]
  rw [Group.tokens_ofTerms, ← hterms, hgroups, joined_map_joined join hne, List.map_flatMap,
    List.flatMap_def]

/-- **Groups become one group**: two groups or more with a join word between them are a group of
all their terms, if none of them has another join word. -/
theorem Group.exists_of_groups {join : Join} {gs : List Group} (htwo : 2 ≤ gs.length)
    (hjoin : ∀ g ∈ gs, g.join? = none ∨ g.join? = some join) :
    ∃ g : Group, g.tokens = Token.joined join (gs.map Group.tokens) ∧ g.join? = some join ∧
      g.exprs = gs.flatMap Group.exprs := by
  have hexprs : (gs.flatMap Group.terms).map Term.expr = gs.flatMap Group.exprs := by
    simp [List.map_flatMap, Group.map_expr_terms]
  obtain _ | ⟨first, _ | ⟨second, gs⟩⟩ := gs
  · simp at htwo
  · simp at htwo
  -- each group has a term, so there is a first one, a second one and a list of others
  obtain ⟨t, rest, hfirst⟩ := List.exists_cons_of_ne_nil first.terms_ne_nil
  obtain ⟨t', rest', hsecond⟩ := List.exists_cons_of_ne_nil second.terms_ne_nil
  have hterms : (first :: second :: gs).flatMap Group.terms =
      t :: (rest ++ t' :: (rest' ++ gs.flatMap Group.terms)) := by
    simp [hfirst, hsecond]
  refine ⟨.ofTerms join t _, Group.tokens_ofTerms_flatMap hjoin hterms, ?_, ?_⟩
  · cases rest <;> rfl
  · rw [Group.exprs_ofTerms, ← hterms, hexprs]

/-! ### Outside parentheses -/

/-- The join words outside parentheses, when a number of parentheses is open before. -/
def outerJoins (opened : Nat) : List Token → List Join
  | [] => []
  | .opening :: ts => outerJoins (opened + 1) ts
  | .closing :: ts => outerJoins (opened - 1) ts
  | .join j :: ts => if opened = 0 then j :: outerJoins opened ts else outerJoins opened ts
  | _ :: ts => outerJoins opened ts

/-- The tokens close the parentheses that they open and no others, so their outer join words do not
depend on what follows, and the other way round. -/
def Closed (ts : List Token) : Prop :=
  ∀ (opened : Nat) (rest : List Token),
    outerJoins opened (ts ++ rest) =
      (if opened = 0 then outerJoins 0 ts else []) ++ outerJoins opened rest

theorem Closed.outerJoins_append {ts : List Token} (h : Closed ts) (rest : List Token) :
    outerJoins 0 (ts ++ rest) = outerJoins 0 ts ++ outerJoins 0 rest :=
  h 0 rest

theorem Closed.outerJoins_succ {ts : List Token} (h : Closed ts) (opened : Nat)
    (rest : List Token) : outerJoins (opened + 1) (ts ++ rest) = outerJoins (opened + 1) rest :=
  h (opened + 1) rest

theorem Closed.append {ts ts' : List Token} (h : Closed ts) (h' : Closed ts') :
    Closed (ts ++ ts') := by
  intro opened rest
  rw [List.append_assoc, h, h', h.outerJoins_append]
  split <;> simp

theorem closed_join (join : Join) : Closed [.join join] := by
  intro opened rest
  by_cases hopened : opened = 0
  · subst hopened
    rfl
  · simp [outerJoins, hopened]

theorem outerJoins_parenthesised {ts : List Token} (h : Closed ts) :
    outerJoins 0 (.opening :: (ts ++ [.closing])) = [] := by
  rw [outerJoins, h.outerJoins_succ]
  rfl

theorem Closed.parenthesised {ts : List Token} (h : Closed ts) :
    Closed (.opening :: (ts ++ [.closing])) := by
  intro opened rest
  rw [outerJoins_parenthesised h, List.cons_append, List.append_assoc, outerJoins,
    h.outerJoins_succ]
  simp [outerJoins]

theorem closed_phrase (p : Phrase) : Closed p.tokens ∧ outerJoins 0 p.tokens = [] := by
  cases p with
  | bare => exact ⟨fun opened rest => by simp [Phrase.tokens, outerJoins], rfl⟩
  | valued _ _ _ _ operand =>
    cases operand <;> exact ⟨fun opened rest => by
      simp [Phrase.tokens, Operand.token, outerJoins], rfl⟩

mutual

/-- A term closes its parentheses. -/
theorem Term.closed_tokens : ∀ t : Term, Closed t.tokens
  | .condition p => (closed_phrase p).1
  | .parenthesised g => g.closed_tokens.parenthesised

/-- A group closes its parentheses. -/
theorem Group.closed_tokens : ∀ g : Group, Closed g.tokens
  | .lone t => t.closed_tokens
  | .joined join ts => ts.closed_tokens join

theorem Terms.closed_tokens (join : Join) : ∀ ts : Terms, Closed (ts.tokens join)
  | .pair first second =>
    first.closed_tokens.append ((closed_join join).append second.closed_tokens)
  | .snoc ts t => (ts.closed_tokens join).append ((closed_join join).append t.closed_tokens)

end

/-- A term has no join word outside parentheses. -/
theorem Term.outerJoins_tokens : ∀ t : Term, outerJoins 0 t.tokens = []
  | .condition p => (closed_phrase p).2
  | .parenthesised g => outerJoins_parenthesised g.closed_tokens

/-! ### Join words between joined tokens -/

theorem closed_flatMap {join : Join} {tss : List (List Token)} (h : ∀ ts ∈ tss, Closed ts) :
    Closed (tss.flatMap fun ts => .join join :: ts) ∧
      outerJoins 0 (tss.flatMap fun ts => .join join :: ts) =
        tss.flatMap fun ts => join :: outerJoins 0 ts := by
  induction tss with
  | nil => exact ⟨fun opened rest => by simp [outerJoins], rfl⟩
  | cons ts tss ih =>
    obtain ⟨hclosed, hjoins⟩ := ih fun ts' hmem => h ts' (List.mem_cons_of_mem _ hmem)
    have hts : Closed (.join join :: ts) :=
      (closed_join join).append (h ts List.mem_cons_self)
    rw [List.flatMap_cons, List.flatMap_cons, hts.outerJoins_append, hjoins]
    exact ⟨hts.append hclosed, rfl⟩

theorem closed_joined {join : Join} {tss : List (List Token)} (h : ∀ ts ∈ tss, Closed ts) :
    Closed (Token.joined join tss) := by
  cases tss with
  | nil => exact fun opened rest => by simp [Token.joined, outerJoins]
  | cons ts tss =>
    rw [joined_cons]
    exact (h ts List.mem_cons_self).append
      (closed_flatMap fun ts' hmem => h ts' (List.mem_cons_of_mem _ hmem)).1

/-- The outer join words of joined tokens are those of each piece, and one in front of each piece
but the first. -/
theorem outerJoins_joined (join : Join) {ts : List Token} {tss : List (List Token)}
    (h : ∀ ts' ∈ ts :: tss, Closed ts') :
    outerJoins 0 (Token.joined join (ts :: tss)) =
      outerJoins 0 ts ++ tss.flatMap fun ts' => join :: outerJoins 0 ts' := by
  rw [joined_cons, (h ts List.mem_cons_self).outerJoins_append,
    (closed_flatMap fun ts' hmem => h ts' (List.mem_cons_of_mem _ hmem)).2]

/-- Joined terms have one join word outside parentheses, in front of each term but the first. -/
theorem Terms.outerJoins_tokens (join : Join) (ts : Terms) :
    outerJoins 0 (ts.tokens join) = List.replicate (ts.toList.length - 1) join := by
  obtain ⟨t, rest, hterms⟩ := List.exists_cons_of_ne_nil ts.toList_ne_nil
  have hclosed : ∀ ts' ∈ t.tokens :: rest.map Term.tokens, Closed ts' := by
    simp [Term.closed_tokens]
  have hrest : (rest.map Term.tokens).flatMap (fun ts' => join :: outerJoins 0 ts') =
      rest.flatMap fun _ => [join] := by
    simp [List.flatMap_map, Term.outerJoins_tokens]
  rw [ts.tokens_eq_joined, hterms, List.map_cons, outerJoins_joined join hclosed,
    t.outerJoins_tokens, hrest, ← List.map_eq_flatMap, List.map_const']
  rfl

/-- **The join word of a group** is the first one outside parentheses. -/
theorem Group.head?_outerJoins (g : Group) : (outerJoins 0 g.tokens).head? = g.join? := by
  cases g with
  | lone t => rw [tokens, t.outerJoins_tokens]; rfl
  | joined join ts =>
    have htwo := ts.two_le_length_toList
    rw [tokens, ts.outerJoins_tokens, List.head?_replicate, if_neg (by omega), join?]

/-- Outside parentheses a group has no other join word than its own. -/
theorem Group.join?_of_mem_outerJoins {g : Group} {join : Join}
    (h : join ∈ outerJoins 0 g.tokens) : g.join? = some join := by
  cases g with
  | lone t => simp [tokens, t.outerJoins_tokens] at h
  | joined join' ts =>
    rw [tokens, ts.outerJoins_tokens] at h
    rw [join?, List.eq_of_mem_replicate h]

/-- A group that has the tokens of closed parentheses is a lone term, a group in parentheses. -/
theorem Group.exists_of_parenthesised {g : Group} {ts : List Token} (hclosed : Closed ts)
    (h : g.tokens = .opening :: (ts ++ [.closing])) :
    ∃ g' : Group, g = .lone (.parenthesised g') ∧ g'.tokens = ts := by
  have hjoin := g.head?_outerJoins
  rw [h, outerJoins_parenthesised hclosed] at hjoin
  cases g with
  | joined join ts => simp [join?] at hjoin
  | lone t =>
    cases t with
    | condition p => cases p <;> simp [tokens, Term.tokens, Phrase.tokens] at h
    | parenthesised g' => exact ⟨g', rfl, by simpa [tokens, Term.tokens] using h⟩

/-- **Groups with other join words do not become one**: if two groups or more with a join word
between them are one group, that join word is the only one they have outside parentheses. -/
theorem Group.join?_eq_of_tokens_eq_joined {join : Join} {g : Group} {gs : List Group}
    (h : g.tokens = Token.joined join (gs.map Group.tokens)) (htwo : 2 ≤ gs.length) :
    ∀ g' ∈ gs, ∀ j ∈ outerJoins 0 g'.tokens, j = join := by
  obtain _ | ⟨first, _ | ⟨second, rest⟩⟩ := gs
  · simp at htwo
  · simp at htwo
  have hclosed : ∀ ts ∈ first.tokens :: (second :: rest).map Group.tokens, Closed ts := by
    simp [Group.closed_tokens]
  have houter := outerJoins_joined join hclosed
  rw [← List.map_cons, ← h] at houter
  -- the join word between the first two groups is outside parentheses, so it is that of the whole
  have hbetween : join ∈ outerJoins 0 g.tokens := by simp [houter]
  have hown := Group.join?_of_mem_outerJoins hbetween
  intro g' hg' j hj
  have hmem : j ∈ outerJoins 0 g.tokens := by
    rw [houter, List.mem_append, List.flatMap_map, List.mem_flatMap]
    rcases List.mem_cons.1 hg' with rfl | hg'
    · exact .inl hj
    · exact .inr ⟨g', hg', List.mem_cons_of_mem _ hj⟩
  have hsame := Group.join?_of_mem_outerJoins hmem
  exact Option.some.inj (hsame.symm.trans hown)

end RecordFilter.Grammar
