import RecordFilter.Proofs.Where.Denotes

/-!
# Two printers

A group under construction is printed clause by clause, and the texts are joined when all of them
are there. An expression can be printed in one go, too: everything is put behind what is written
already, and a member is separated from those before it if there are any (`Expr.write`). Both ways
give the text of an expression (`Expr.write_eq`).

A draft is printed as its condition is, also where the condition drops an operand that the operator
does not take, and the clauses of a group are printed as the members of its expression, one by one
(`Clause.Denotes.text_eq`). So a group and its expression have one text, whatever their literals are
and however many clauses there are (`Where.texts_agree`).
-/

namespace RecordFilter

/-! ### Printing behind a text -/

/-- Prints a condition behind a text. -/
def Condition.write (out : String) (c : Condition) : String :=
  let out := out ++ Text.quote c.property ++ " " ++ c.operator.symbol
  match c.value with
  | none => out
  | some value => out ++ " " ++ value.text

theorem Condition.write_eq (out : String) (c : Condition) : c.write out = out ++ c.text := by
  unfold write text
  cases c.value with
  | none => simp only [String.append_assoc]
  | some value => simp only [String.append_assoc]

namespace Expr

/-- What stands in front of a member of a group, by the number of members before it. -/
def separator (join : Join) (i : Nat) : String := if 0 < i then " " ++ join.word ++ " " else ""

mutual

/-- Prints an expression behind a text. -/
def write (out : String) : Expr → String
  | condition c => c.write out
  | group join children => writeMembers join 0 (out ++ "(") children ++ ")"

/-- Prints members of a group behind a text, when a number of members is in front of them. -/
def writeMembers (join : Join) (i : Nat) (out : String) : List Expr → String
  | [] => out
  | e :: es => writeMembers join (i + 1) (e.write (out ++ separator join i)) es

end

/-- The first of some joined texts, and the others behind it. -/
theorem intercalate_texts_cons (separator : String) (e : Expr) (es : List Expr) :
    String.intercalate separator (texts (e :: es)) =
      e.text ++ (if es = [] then "" else separator) ++ String.intercalate separator (texts es) := by
  cases es with
  | nil => simp [texts]
  | cons e' es => simp [texts]

mutual

/-- **Printing an expression in one go** puts its text behind what is there. -/
theorem write_eq : ∀ (e : Expr) (out : String), e.write out = out ++ e.text
  | .condition c, out => c.write_eq out
  | .group join children, out => by
    rw [write, writeMembers_eq, text]
    simp [separator, String.append_assoc]

theorem writeMembers_eq : ∀ (es : List Expr) (join : Join) (i : Nat) (out : String),
    writeMembers join i out es =
      out ++ (if es = [] then "" else separator join i) ++
        String.intercalate (" " ++ join.word ++ " ") (texts es)
  | [], join, i, out => by simp [writeMembers, texts]
  | e :: es, join, i, out => by
    have hnext : separator join (i + 1) = " " ++ join.word ++ " " := if_pos (Nat.succ_pos i)
    rw [writeMembers, writeMembers_eq es, write_eq e, intercalate_texts_cons, hnext,
      if_neg (List.cons_ne_nil e es)]
    simp only [String.append_assoc]

end

end Expr

/-! ### Groups and their expressions -/

namespace Where

variable {w : Where}

/-- A group without raw text has an expression exactly if its drafts are complete. -/
theorem exists_expr_iff (hraw : w.containsRaw = false) :
    (∃ e, w.expr = .ok e) ↔ ∀ d ∈ w.toClause.drafts, ∃ c, d.condition = .ok c := by
  constructor
  · rintro ⟨e, he⟩ d hd
    have hdenotes := Clause.denotes_of_expr w.toClause hraw he
    have hmem : d.condition ∈ e.conditions.map Except.ok :=
      hdenotes.conditions_eq ▸ List.mem_map_of_mem hd
    obtain ⟨c, -, hc⟩ := List.mem_map.1 hmem
    exact ⟨c, hc.symm⟩
  · intro hdrafts
    obtain ⟨e, he⟩ := Clause.exists_denotes w.toClause hraw hdrafts
    exact ⟨e, he.expr_eq⟩

/-- **The two printers agree.** A group without raw text has an expression exactly if its drafts are
complete, and then both have the same text, whether that of the expression is joined from its
members' texts or printed in one go. So do a complete draft and its condition. -/
theorem texts_agree :
    (∀ w : Where, w.containsRaw = false →
      ((∃ e, w.expr = .ok e) ↔ ∀ d ∈ w.toClause.drafts, ∃ c, d.condition = .ok c) ∧
      ∀ e, w.expr = .ok e → w.text = e.text ∧ w.text = e.write "") ∧
    ∀ (d : Draft) (c : Condition), d.condition = .ok c →
      d.text = c.text ∧ d.text = c.write "" := by
  refine ⟨fun w hraw => ⟨exists_expr_iff hraw, fun e he => ?_⟩, fun d c hc => ?_⟩
  · have htext : w.text = e.text := (Clause.denotes_of_expr w.toClause hraw he).text_eq
    exact ⟨htext, by rw [htext, Expr.write_eq, String.empty_append]⟩
  · have htext : d.text = c.text := Draft.text_of_condition hc
    exact ⟨htext, by rw [htext, Condition.write_eq, String.empty_append]⟩

/-- A comparison with a NaN, a group without clauses, and a group of one clause that is joined by
`or`, in a group with that join; and a draft with an operand that its operator does not take. -/
theorem texts_agree_nan :
    (∃ (w : Where) (e : Expr), w.containsRaw = false ∧ w.expr = .ok e ∧
      w.text = "(\"a\" < NaN or () or (\"b\" missing))" ∧ w.text = e.text ∧ w.text = e.write "") ∧
    ∃ (d : Draft) (c : Condition), d.condition = .ok c ∧ d.value ≠ c.value ∧ d.text = c.text ∧
      d.text = c.write "" := by
  let nan : Literal := .nonFinite .nan
  let w : Where := ⟨some .or, [.draft ⟨some "a", some .less, some nan⟩, .nested none [],
    .nested (some .or) [.draft ⟨some "b", some .missing, none⟩]]⟩
  let e : Expr := .group .or [.condition ⟨"a", .less, some nan⟩, .group .and [],
    .group .or [.condition ⟨"b", .missing, none⟩]]
  let d : Draft := ⟨some "b", some .present, some nan⟩
  have he : w.expr = .ok e := rfl
  have hd : d.condition = .ok ⟨"b", .present, none⟩ := rfl
  obtain ⟨hgroups, hdrafts⟩ := texts_agree
  obtain ⟨htext, hwrite⟩ := (hgroups w rfl).2 e he
  exact ⟨⟨w, e, rfl, he, by decide +kernel, htext, hwrite⟩, d, _, hd, by simp [d], hdrafts d _ hd⟩

end Where

end RecordFilter
