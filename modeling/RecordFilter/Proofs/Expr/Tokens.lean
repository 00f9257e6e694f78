import RecordFilter.Expr
import RecordFilter.Proofs.Token.Spelling

/-!
# The tokens of a written expression

`Expr.tokens` is what the text of an expression is made of, and `writes_text` says that the lexer
finds it there: no property and no operand leaks a token, and none runs into its neighbour. Only
the operands matter for that (`Literal.IsWritable`); groups may be of any shape, empty ones
included.
-/

namespace RecordFilter

open Token (Writes joined joinText writes_quote writes_symbol writes_boolean
  writes_integerText)

/-! ### Literals and conditions -/

/-- The literal is read back from its text: a boolean, an integer, or a text under the kind that
its form gives it. -/
def Literal.IsWritable : Literal → Prop
  | .boolean _ => True
  | .number (.integer _ _) => True
  | .number (.float _ _) => False
  | .string s => Calendar.isDateLike s = false
  | .date s => Calendar.isDateLike s = true
  | .nonFinite _ => False

/-- The condition is one that the language has: it names a property, has an operand exactly if
its operator takes one, and the operand can be written. -/
structure Condition.IsWritable (c : Condition) : Prop where
  property_ne : c.property ≠ ""
  isSome_value : c.value.isSome = c.operator.takesValue
  value_writable : ∀ v ∈ c.value, v.IsWritable

instance : DecidablePred Literal.IsWritable
  | .boolean _ => .isTrue trivial
  | .number (.integer _ _) => .isTrue trivial
  | .number (.float _ _) => .isFalse id
  | .string s => inferInstanceAs (Decidable (Calendar.isDateLike s = false))
  | .date s => inferInstanceAs (Decidable (Calendar.isDateLike s = true))
  | .nonFinite _ => .isFalse id

instance : DecidablePred Condition.IsWritable := fun c =>
  decidable_of_iff
    (c.property ≠ "" ∧ c.value.isSome = c.operator.takesValue ∧ ∀ v ∈ c.value, v.IsWritable)
    ⟨fun ⟨hne, hsome, hvalue⟩ => ⟨hne, hsome, hvalue⟩,
      fun h => ⟨h.property_ne, h.isSome_value, h.value_writable⟩⟩

/-- No literal that is read back from its text is of the kind of numbers that are not finite. -/
theorem Literal.IsWritable.kind_ne {v : Literal} (h : v.IsWritable) : v.kind ≠ .nonFinite := by
  cases v with
  | nonFinite x => exact h.elim
  | boolean _ | number _ | string _ | date _ => simp [kind]

/-- The token that a literal is written as. Numbers that are not finite are written as none. -/
def Literal.tokens : Literal → List Token
  | .boolean b => [.boolean b]
  | .number n => [.number n]
  | .string s | .date s => [.string s]
  | .nonFinite _ => []

/-- The tokens that a condition is written as. -/
def Condition.tokens (c : Condition) : List Token :=
  .string c.property :: .operator c.operator ::
    match c.value with
    | none => []
    | some v => v.tokens

theorem writes_literal {v : Literal} (h : v.IsWritable) : Writes v.text.toList v.tokens := by
  cases v with
  | boolean b => exact writes_boolean b
  | number n =>
    cases n with
    | integer n fits => exact writes_integerText fits
    | float x finite => exact h.elim
  | string s => exact writes_quote s
  | date s => exact writes_quote s
  | nonFinite x => exact h.elim

theorem writes_condition {c : Condition} (h : ∀ v ∈ c.value, v.IsWritable) :
    Writes c.text.toList c.tokens := by
  have hhead := (writes_quote c.property).space (writes_symbol c.operator)
  cases hvalue : c.value with
  | none => simpa [Condition.text, Condition.tokens, hvalue] using hhead
  | some v =>
    have hvalues := hhead.space (writes_literal (h v hvalue))
    simpa [Condition.text, Condition.tokens, hvalue] using hvalues

/-! ### Expressions -/

namespace Expr

mutual

/-- The tokens that an expression is written as. -/
def tokens : Expr → List Token
  | condition c => c.tokens
  | group join children => .opening :: (joined join (tokensOfAll children) ++ [.closing])

/-- The tokens that each of some expressions is written as. -/
def tokensOfAll : List Expr → List (List Token)
  | [] => []
  | e :: es => e.tokens :: tokensOfAll es

end

mutual

theorem writes_text : ∀ e : Expr, (∀ c ∈ e.conditions, ∀ v ∈ c.value, v.IsWritable) →
    Writes e.text.toList e.tokens
  | condition c, h => by
    rw [text, tokens]
    exact writes_condition (h c (by simp [conditions]))
  | group join children, h => by
    have hinside := (Writes.intercalate join (writes_texts children h)).parenthesised
    simpa [text, tokens, joinText] using hinside

theorem writes_texts : ∀ es : List Expr,
    (∀ c ∈ conditionsOfAll es, ∀ v ∈ c.value, v.IsWritable) →
    List.Forall₂ (fun text ts => Writes text.toList ts) (texts es) (tokensOfAll es)
  | [], _ => .nil
  | e :: es, h =>
    .cons (writes_text e fun c hc => h c (List.mem_append_left _ hc))
      (writes_texts es fun c hc => h c (List.mem_append_right _ hc))

end

end Expr

end RecordFilter
