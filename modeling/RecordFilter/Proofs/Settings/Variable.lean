import RecordFilter.Proofs.Compiler.Primitive
import RecordFilter.Proofs.Settings.Scalar
import RecordFilter.Settings

/-!
# Settings from variables

No setting is a boolean or a number, but the text of a variable counts as one before the type of
its setting is known. So the suffix is taken as written unless it is a scalar that is written
differently from how it would be written back, and a list of fields that is a single scalar is no
list at all (`Settings.taken_as_written_iff`). What was taken is what queries show: comparison
with a string asks the field that the settings name (`Settings.asks_exactField`).
-/

namespace RecordFilter

/-- A name is in the set of a list exactly if it is in the list. -/
theorem FieldSet.contains_ofList {names : List String} {f : String} :
    (FieldSet.ofList names).contains f = true ↔ f ∈ names := by
  have hinsert (s : FieldSet) (name : String) :
      f ∈ (s.insert name).names ↔ f = name ∨ f ∈ s.names := by
    unfold FieldSet.insert
    split
    · rename_i hmem
      exact ⟨.inr, fun h => h.elim (fun heq => heq ▸ hmem) id⟩
    · exact List.mem_cons
  have hfold (s : FieldSet) :
      f ∈ (names.foldl FieldSet.insert s).names ↔ f ∈ names ∨ f ∈ s.names := by
    induction names generalizing s with
    | nil => simp
    | cons name names ih => rw [List.foldl_cons, ih, hinsert, List.mem_cons, or_left_comm, or_assoc]
  rw [FieldSet.contains, List.contains_iff_mem, FieldSet.ofList, hfold]
  simp [FieldSet.empty]

namespace Settings

/-! ### What is asked -/

/-- With these settings, equality of a property and a string asks a field. -/
def Asks (settings : Settings) (property field : String) : Prop :=
  ∀ s, settings.compiler.compileExpr settings.fields
      (.condition ⟨property, .equal, some (.string s)⟩) =
    .ok (.allOf [.leaf (.term field (.string s))])

/-- The field that is asked is the property itself or its subfield. -/
theorem asks_exactField (settings : Settings) {property : String} (h : property ≠ "") :
    settings.Asks property (settings.fields.exactField settings.exactSuffix property) := by
  intro s
  have hstring : Condition.IsStringEquality ⟨property, .equal, some (.string s)⟩ :=
    ⟨.inl rfl, s, rfl⟩
  refine Compiler.compileExpr_condition_eq_ok_iff.2
    ⟨_, Compiler.leafOf_eq_ok_iff.2 ⟨h, .term, rfl, ?_⟩, rfl⟩
  rw [Settings.compiler, Condition.termField_eq, Condition.askedField_of_isStringEquality hstring]
  rfl

/-! ### One variable -/

/-- Without a file, a single variable gives a single entry. -/
theorem read?_variable {name setting : String} (hname : settingOf? name = some setting)
    (hpath : Value.pathOf setting = [.entry setting]) (v : String) :
    read? none [(name, v)] =
      ofValue? (.table [(setting, .ofVariable (setting == notAnalyzedName) v)]) := by
  simp [read?, variableEntries, hname, gather, hpath, Value.put, Value.putEntry, Value.entries]

theorem read?_suffix (v : String) : read? none [("MUTO_EXACT_SUFFIX", v)] =
    (Value.ofVariable false v).text?.map fun suffix => ⟨[], suffix⟩ := by
  have hname : settingOf? "MUTO_EXACT_SUFFIX" = some exactSuffixName := by decide +kernel
  have hpath : Value.pathOf exactSuffixName = [.entry exactSuffixName] := by decide +kernel
  have hlist : (exactSuffixName == notAnalyzedName) = false := by decide
  rw [read?_variable hname hpath, hlist]
  cases htext : (Value.ofVariable false v).text? <;>
    simp [ofValue?, Value.entry?, Value.entries, hlist, htext]

theorem read?_notAnalyzed (v : String) : read? none [("MUTO_NOT_ANALYZED_FIELDS", v)] =
    (Value.ofVariable true v).texts?.map fun fields => ⟨fields, defaultExactSuffix⟩ := by
  have hname : settingOf? "MUTO_NOT_ANALYZED_FIELDS" = some notAnalyzedName := by decide +kernel
  have hpath : Value.pathOf notAnalyzedName = [.entry notAnalyzedName] := by decide +kernel
  have hlist : (notAnalyzedName == exactSuffixName) = false := by decide
  rw [read?_variable hname hpath, beq_self_eq_true]
  cases htexts : (Value.ofVariable true v).texts? <;>
    simp [ofValue?, Value.entry?, Value.entries, hlist, htexts]

theorem texts?_list (texts : List String) :
    (Value.list (texts.map .text)).texts? = some texts := by
  rw [Value.texts?]
  induction texts with
  | nil => rfl
  | cons text texts ih => simp [Value.text?, ih]

/-! ### What is taken -/

/-- **What is taken as written.** The variable of the suffix always gives one, and this is the
written text exactly if that counts as no boolean and no number, or is the text that this boolean
or number has. The variable of the fields gives a list exactly if its text counts as neither, and
then it is the list of the pieces between the commas; with a comma it always does. Queries ask the
fields that these settings name. -/
theorem taken_as_written_iff (v : String) :
    (∃ suffix, read? none [("MUTO_EXACT_SUFFIX", v)] = some ⟨[], suffix⟩ ∧
      (suffix = v ↔ ¬IsScalar v ∨ IsCanonical v) ∧
      ∀ f, f ≠ "" → Asks ⟨[], suffix⟩ f (f ++ "." ++ suffix)) ∧
    ((∃ settings, read? none [("MUTO_NOT_ANALYZED_FIELDS", v)] = some settings) ↔ ¬IsScalar v) ∧
    (¬IsScalar v →
      read? none [("MUTO_NOT_ANALYZED_FIELDS", v)] = some ⟨v.splitOn ",", defaultExactSuffix⟩ ∧
      ∀ f, f ≠ "" → Asks ⟨v.splitOn ",", defaultExactSuffix⟩ f
        (if f ∈ v.splitOn "," then f else f ++ "." ++ defaultExactSuffix)) ∧
    (',' ∈ v.toList → ¬IsScalar v) := by
  have hfield (settings : Settings) (f : String) :
      settings.fields.exactField settings.exactSuffix f =
        if f ∈ settings.notAnalyzed then f else f ++ "." ++ settings.exactSuffix := by
    simp only [FieldSet.exactField, Settings.fields, FieldSet.contains_ofList]
  have hlist (h : ¬IsScalar v) : read? none [("MUTO_NOT_ANALYZED_FIELDS", v)] =
      some ⟨v.splitOn ",", defaultExactSuffix⟩ := by
    rw [read?_notAnalyzed, Value.ofVariable_of_not_isScalar true h, if_pos rfl, texts?_list]
    rfl
  refine ⟨?_, ⟨?_, fun h => ⟨_, hlist h⟩⟩, fun h => ⟨hlist h, fun f hf => ?_⟩,
    not_isScalar_of_comma⟩
  · obtain ⟨suffix, hread, hwritten⟩ : ∃ suffix, (Value.ofVariable false v).text? = some suffix ∧
        (suffix = v ↔ ¬IsScalar v ∨ IsCanonical v) := by
      by_cases hscalar : IsScalar v
      · obtain ⟨t, ht, -, hcanonical⟩ := Value.exists_text?_ofVariable false hscalar
        exact ⟨t, ht, by simp [hcanonical, hscalar]⟩
      · refine ⟨v, ?_, by simp [hscalar]⟩
        rw [Value.ofVariable_of_not_isScalar false hscalar]
        rfl
    refine ⟨suffix, by rw [read?_suffix, hread]; rfl, hwritten, fun f hf => ?_⟩
    have hasks := asks_exactField ⟨[], suffix⟩ hf
    rwa [hfield, if_neg List.not_mem_nil] at hasks
  · -- a scalar is no list
    rintro ⟨settings, hread⟩ hscalar
    obtain ⟨-, -, hnone, -⟩ := Value.exists_text?_ofVariable true hscalar
    rw [read?_notAnalyzed, hnone] at hread
    simp at hread
  · have hasks := asks_exactField ⟨v.splitOn ",", defaultExactSuffix⟩ hf
    rwa [hfield] at hasks

/-- The suffix `007` becomes `7`, so another subfield is asked. The field `12` is no list, while
together with a second one it is. -/
theorem taken_as_written_iff_digits :
    (∃ suffix, read? none [("MUTO_EXACT_SUFFIX", "007")] = some ⟨[], suffix⟩ ∧ suffix ≠ "007" ∧
      Asks ⟨[], suffix⟩ "status" "status.7") ∧
    read? none [("MUTO_NOT_ANALYZED_FIELDS", "12")] = none ∧
    ',' ∈ "12,id".toList ∧ ¬IsScalar "12,id" ∧
    (∃ settings, read? none [("MUTO_NOT_ANALYZED_FIELDS", "12,id")] = some settings) ∧
    Asks ⟨"12,id".splitOn ",", defaultExactSuffix⟩ "id"
      (if "id" ∈ "12,id".splitOn "," then "id" else "id" ++ "." ++ defaultExactSuffix) := by
  obtain ⟨suffix, hread, -, hasks⟩ := (taken_as_written_iff "007").1
  have hseven : read? none [("MUTO_EXACT_SUFFIX", "007")] = some ⟨[], "7"⟩ := by decide +kernel
  obtain rfl : suffix = "7" :=
    congrArg Settings.exactSuffix (Option.some.inj (hread.symm.trans hseven))
  obtain ⟨-, hlist, hfields, hcomma⟩ := taken_as_written_iff "12,id"
  have hmem : ',' ∈ "12,id".toList := by decide
  exact ⟨⟨"7", hread, by decide, hasks "status" (by decide)⟩, by decide +kernel, hmem, hcomma hmem,
    hlist.2 (hcomma hmem), (hfields (hcomma hmem)).2 "id" (by decide)⟩

end Settings

end RecordFilter
