import RecordFilter.Proofs.Binary64.Reread
import RecordFilter.Proofs.Compiler.TextOutcome
import RecordFilter.Proofs.Compiler.Trace
import RecordFilter.Proofs.Draft
import RecordFilter.Proofs.Expr.RoundTrip
import RecordFilter.Proofs.Parser.Accepting

/-!
# Comparisons with floats

A property is compared with a float by a draft. Its text denotes the comparison with the finite
number as which the float is read (`Draft.parse_comparing_eq_ok_iff`), and its condition is the
comparison with the float itself. Different numbers make different queries
(`Compiler.number_eq_of_compileExpr`), so the text and the condition have the same query exactly if
the float is read back.
-/

namespace RecordFilter

open RecordFilter.Parser (Accepts)
open Token (Writes Delimits)

/-- The operators that compare with a number. -/
def Operator.compares : Operator → Bool
  | equal | notEqual | less | atMost | greater | atLeast => true
  | is | present | missing | contains | lacks => false

theorem Operator.takesValue_of_compares {op : Operator} (h : op.compares = true) :
    op.takesValue = true := by
  cases op <;> simp_all [compares, takesValue]

/-! ### Texts of floats -/

/-- What a phrase is written as denotes its condition. -/
theorem Expr.parse_of_writes {text : String} {p : Grammar.Phrase}
    (h : Writes text.toList p.tokens) : Expr.parse text = .ok (.condition p.toCondition) := by
  obtain ⟨lexemes, hlexemes, htokens⟩ := h.spells.exists_tokenize
  exact (Grammar.parse_eq_ok_iff_derivation hlexemes).2
    ⟨.lone (.condition p), htokens.symm, Nat.zero_le _, rfl⟩

theorem writes_float {x : Binary64} (hx : x.isFinite = true) :
    Writes (x.text .json).toList [.number (.float x.reread (x.isFinite_reread hx))] :=
  Token.writes_of_read? fun _ hrest => Token.read?_of_readNumber? (readNumber?_text hx hrest.ends)

namespace Draft

/-- The draft that compares a property with a number. -/
def comparing (property : String) (op : Operator) (x : Binary64) : Draft :=
  (empty.setProperty property).setOperator op (some (.ofBinary64 x))

variable {property : String} {op : Operator} {x : Binary64}

theorem value_comparing (hx : x.isFinite = true) :
    (comparing property op x).value = some (.number (.float x hx)) := by
  simp [comparing, setOperator, Literal.ofBinary64, Number.ofBinary64?, hx]

theorem text_comparing (hx : x.isFinite = true) (hop : op.compares = true) :
    (comparing property op x).text =
      Text.quote property ++ " " ++ op.symbol ++ " " ++ x.text .json := by
  have hoperator : (comparing property op x).operator = some op := rfl
  have hproperty : (comparing property op x).property = some property := rfl
  simp only [text, hoperator, hproperty, value_comparing hx, op.takesValue_of_compares hop, if_true,
    Option.getD_some]
  rfl

theorem condition_comparing_eq_ok_iff (hx : x.isFinite = true) (hop : op.compares = true)
    {c : Condition} : (comparing property op x).condition = .ok c ↔
      property ≠ "" ∧ c = ⟨property, op, some (.number (.float x hx))⟩ := by
  have htakes := Operator.takesValue_of_compares hop
  have hproperty : (comparing property op x).property = some property := rfl
  have hoperator : (comparing property op x).operator = some op := rfl
  rw [condition_eq_ok_iff, hproperty, hoperator, value_comparing hx]
  constructor
  · rintro ⟨hne, hname, hop', -, hvalue⟩
    obtain ⟨property', op', value⟩ := c
    obtain rfl : property = property' := Option.some.inj hname
    obtain rfl : op = op' := Option.some.inj hop'
    exact ⟨hne, by simpa [htakes] using hvalue⟩
  · rintro ⟨hne, rfl⟩
    exact ⟨hne, rfl, rfl, by simp [htakes], by simp [htakes]⟩

/-- **What the text of a comparison with a float denotes**: the comparison with the number as which
the float is read. -/
theorem parse_comparing_eq_ok_iff (hx : x.isFinite = true) (hop : op.compares = true) {e : Expr} :
    Expr.parse (comparing property op x).text = .ok e ↔ property ≠ "" ∧
      e = .condition ⟨property, op, some (.number (.float x.reread (x.isFinite_reread hx)))⟩ := by
  have htakes := Operator.takesValue_of_compares hop
  have hform : (comparing property op x).text.toList =
      (Text.quote property ++ " " ++ op.symbol).toList ++ ' ' :: (x.text .json).toList := by
    rw [text_comparing hx hop]
    simp
  have hparse (hne : property ≠ "") : Expr.parse (comparing property op x).text =
      .ok (.condition ⟨property, op, some (.number (.float x.reread (x.isFinite_reread hx)))⟩) := by
    have hhead : Writes (Text.quote property ++ " " ++ op.symbol).toList
        [.string property, .operator op] := by
      simpa using (Token.writes_quote property).space (Token.writes_symbol op)
    have hwrites := hhead.space (writes_float hx)
    rw [← hform] at hwrites
    exact Expr.parse_of_writes (p := .valued property hne op htakes (.number _)) hwrites
  constructor
  · intro h
    have haccepts : Accepts .start (comparing property op x).text.toList :=
      Parser.exists_parse_iff.1 ⟨e, h⟩
    rw [hform] at haccepts
    obtain ⟨hne, -⟩ := haccepts.of_head rfl (Token.delimits_space _)
    exact ⟨hne, Except.ok.inj (h.symm.trans (hparse hne))⟩
  · rintro ⟨hne, rfl⟩
    exact hparse hne

end Draft

/-! ### Queries of comparisons -/

namespace Compiler

variable {suffix property : String} {fields : FieldSet} {op : Operator}

/-- A comparison with a number has a query. -/
theorem exists_compileExpr_of_compares (hproperty : property ≠ "") (hop : op.compares = true)
    (n : Number) : ∃ q, (Compiler.elastic suffix).compileExpr fields
      (.condition ⟨property, op, some (.number n)⟩) = .ok q := by
  have hcondition : (Condition.mk property op (some (.number n))).IsWellFormed :=
    Grammar.Phrase.isWellFormed_toCondition
      (.valued property hproperty op (Operator.takesValue_of_compares hop) (.number n))
  have hsupported : (Condition.mk property op (some (.number n))).isSupported = true := by
    cases op <;> first | rfl | simp [Operator.compares] at hop
  refine exists_compileExpr_eq_ok ⟨?_, ?_, Nat.zero_le _⟩ ?_
  · simpa [Expr.conditions] using hcondition
  · simp [Expr.groups]
  · simpa [Expr.conditions] using hsupported

/-- Comparisons with different numbers have different queries. -/
theorem number_eq_of_compileExpr {n n' : Number} {q : Query}
    (h : (Compiler.elastic suffix).compileExpr fields
      (.condition ⟨property, op, some (.number n)⟩) = .ok q)
    (h' : (Compiler.elastic suffix).compileExpr fields
      (.condition ⟨property, op, some (.number n')⟩) = .ok q) : n = n' := by
  obtain ⟨l, hl, hleaves⟩ := exists_leaf_of_compileExpr h
  obtain ⟨l', hl', hleaves'⟩ := exists_leaf_of_compileExpr h'
  obtain rfl : l = l' := by simpa [hleaves] using hleaves'
  have hvalue := (value?_of_leafOf hl).symm.trans (value?_of_leafOf hl')
  simpa using hvalue

end Compiler

/-! ### Both ways to a query -/

namespace Draft

variable {x : Binary64} {op : Operator}

/-- **The query of the text of a comparison** is that of the comparison with the number as which the
float is read. -/
theorem compile_comparing_eq_ok_iff (hx : x.isFinite = true) (hop : op.compares = true)
    {property suffix : String} {fields : FieldSet} {q : Query} :
    (Compiler.elastic suffix).compile fields (Source.ofDraft (comparing property op x)) = .ok q ↔
      ∃ c, (comparing property op x.reread).condition = .ok c ∧
        (Compiler.elastic suffix).compileExpr fields (.condition c) = .ok q := by
  have htext : (Compiler.elastic suffix).compile fields (Source.ofDraft (comparing property op x)) =
      (Compiler.elastic suffix).compileText fields (comparing property op x).text :=
    Compiler.compile_eq_compileText _ fields rfl
  have hreread := x.isFinite_reread hx
  rw [htext]
  constructor
  · intro h
    obtain ⟨e, he, hq⟩ := Compiler.exists_parse_of_compileText h
    obtain ⟨hne, rfl⟩ := (parse_comparing_eq_ok_iff hx hop).1 he
    exact ⟨_, (condition_comparing_eq_ok_iff hreread hop).2 ⟨hne, rfl⟩, hq⟩
  · rintro ⟨c, hc, hq⟩
    obtain ⟨hne, rfl⟩ := (condition_comparing_eq_ok_iff hreread hop).1 hc
    rwa [Compiler.compileText_of_parse _ ((parse_comparing_eq_ok_iff hx hop).2 ⟨hne, rfl⟩)]

/-- Comparisons with different floats have different queries, unless their property has no name. -/
theorem same_queries_iff {y : Binary64} (hx : x.isFinite = true) (hy : y.isFinite = true)
    (hop : op.compares = true) {property suffix : String} {fields : FieldSet} :
    (∀ q, (∃ c, (comparing property op y).condition = .ok c ∧
        (Compiler.elastic suffix).compileExpr fields (.condition c) = .ok q) ↔
      ∃ c, (comparing property op x).condition = .ok c ∧
        (Compiler.elastic suffix).compileExpr fields (.condition c) = .ok q) ↔
      property = "" ∨ y = x := by
  constructor
  · intro hsame
    refine or_iff_not_imp_left.2 fun hne => ?_
    obtain ⟨q, hq⟩ := Compiler.exists_compileExpr_of_compares hne hop (.float x hx)
    obtain ⟨c, hc, hq'⟩ :=
      (hsame q).2 ⟨_, (condition_comparing_eq_ok_iff hx hop).2 ⟨hne, rfl⟩, hq⟩
    obtain ⟨-, rfl⟩ := (condition_comparing_eq_ok_iff hy hop).1 hc
    simpa using Compiler.number_eq_of_compileExpr hq' hq
  · rintro (rfl | rfl) q
    · simp [condition_comparing_eq_ok_iff hx hop, condition_comparing_eq_ok_iff hy hop]
    · rfl

/-- **When a float survives its text.** The text of a finite number is read as the finite number to
which its digits are scaled, and the query of a comparison through its text is that of the comparison
with the number read. So it is the query without the text exactly if the number is read back (or if
there is no query either way, as the property has no name). A number is read back if the digits make
up a significand below 2⁵³ and the power of ten is at most the twenty-second. -/
theorem float_paths_agree_iff (hx : x.isFinite = true) (hop : op.compares = true)
    (property suffix : String) (fields : FieldSet) :
    (∀ rest, Numeral.Ends rest →
      readNumber? ((Literal.ofBinary64 x).text.toList ++ rest) =
        some (.float x.reread (x.isFinite_reread hx),
          (Literal.ofBinary64 x).text.toList.length)) ∧
    (∀ q, (Compiler.elastic suffix).compile fields (Source.ofDraft (comparing property op x)) =
        .ok q ↔ ∃ c, (comparing property op x.reread).condition = .ok c ∧
          (Compiler.elastic suffix).compileExpr fields (.condition c) = .ok q) ∧
    ((∀ q, (Compiler.elastic suffix).compile fields (Source.ofDraft (comparing property op x)) =
        .ok q ↔ ∃ c, (comparing property op x).condition = .ok c ∧
          (Compiler.elastic suffix).compileExpr fields (.condition c) = .ok q) ↔
      property = "" ∨ x.reread = x) ∧
    (x.written.1 < 0x20000000000000 → x.written.2.natAbs ≤ 22 → x.reread = x) := by
  refine ⟨?_, fun q => compile_comparing_eq_ok_iff hx hop, ?_, x.reread_eq_self hx⟩
  · have hself : Number.ofBinary64? x = some (.float x hx) := dif_pos hx
    have htext : (Literal.ofBinary64 x).text = x.text .json := by
      rw [Literal.ofBinary64, hself]
      rfl
    intro rest hrest
    rw [htext]
    exact readNumber?_text hx hrest
  · simp only [compile_comparing_eq_ok_iff hx hop]
    exact same_queries_iff hx (x.isFinite_reread hx) hop

/-- A number with seventeen digits: its text is read as another one, the next below it, and the
comparison with it has another query through its text. -/
theorem float_paths_agree_iff_seventeen_digits : ∃ x : Binary64, x.isFinite = true ∧
    (comparing "a" .equal x).text = "\"a\" == 1.4000000000000001" ∧
    x.reread.text .json = "1.4" ∧
    ¬ ∀ q, (Compiler.elastic "keyword").compile .empty
        (Source.ofDraft (comparing "a" .equal x)) = .ok q ↔
      ∃ c, (comparing "a" .equal x).condition = .ok c ∧
        (Compiler.elastic "keyword").compileExpr .empty (.condition c) = .ok q := by
  let x : Binary64 := .ofBits 0x3ff6666666666667
  have hx : x.isFinite = true := by decide
  have hother : x.reread ≠ x := by decide +kernel
  have hop : Operator.equal.compares = true := rfl
  obtain ⟨-, -, hpaths, -⟩ := float_paths_agree_iff hx hop "a" "keyword" .empty
  refine ⟨x, hx, by decide +kernel, by decide +kernel, mt hpaths.1 ?_⟩
  rintro (hname | hreread)
  · exact absurd hname (by decide)
  · exact hother hreread

end Draft

end RecordFilter
