import RunQuery.Proofs.CommandLine.Filters

/-!
What one filter word says. The field is written before the mark and the value behind it, and what stands in the value
should be no concern of the mark. Since `!=` is looked for before `=` in the whole word, an inequality is taken as it is
written, whatever its value is; an equality is taken so exactly if there is no `!=` in its value, and is split at that
`!=` otherwise.
-/
namespace RunQuery.CommandLine

section Marks

variable {field value : List Char}

/-- A field without `!` is followed by the first `!=` of the word. -/
theorem filterParts?_unequal (plain : '!' ∉ field) (value : List Char) :
    filterParts? (field ++ '!' :: '=' :: value) = some (field, .neq, value) := by
  have cut : Text.cut? ['!', '='] (field ++ '!' :: '=' :: value) = some (field, value) := Text.cut?_append plain value
  rw [filterParts?, cut]

/-- Behind a field and `=`, the first `!=` of the value counts as the mark of the word. -/
theorem filterParts?_equal (plain : '=' ∉ field ∧ '!' ∉ field) (value : List Char) :
    filterParts? (field ++ '=' :: value) =
      match Text.cut? ['!', '='] value with
      | some (before, after) => some (field ++ '=' :: before, .neq, after)
      | none => some (field, .eq, value) := by
  have double : Text.cut? ['!', '='] (field ++ '=' :: value) =
      (Text.cut? ['!', '='] value).map fun parts => (field ++ ['='] ++ parts.1, parts.2) := by
    have absent : '!' ∉ field ++ ['='] := by simp [plain.2]
    rw [← Text.cut?_append_left absent, List.append_assoc]
    rfl
  rw [filterParts?, double]
  cases Text.cut? ['!', '='] value with
  | some parts => simp
  | none =>
    have single : Text.cut? ['='] (field ++ '=' :: value) = some (field, value) := Text.cut?_append plain.1 value
    simp [single]

theorem trim_ne_nil_of_append (named : Text.trim field ≠ []) (rest : List Char) : Text.trim (field ++ rest) ≠ [] := by
  intro blank
  refine named (Text.trim_eq_nil_iff.mpr fun c member => ?_)
  exact Text.trim_eq_nil_iff.mp blank c (List.mem_append_left rest member)

end Marks

/-- Clauses with different operations are different filters. -/
theorem Clause.operation_of_filter_eq {c d : Clause} (same : c.filter = d.filter) : c.operation = d.operation := by
  have leaves : some c.leaf = some d.leaf := congrArg Filter.predicate same
  rw [Clause.leaf, Clause.leaf, Option.some.injEq, Predicate.compare.injEq, Comparison.mk.injEq] at leaves
  exact leaves.2.1

/-- The clause of a word judges every record by the value at its field. -/
theorem Clause.evaluate_ofParts (field : List Char) (operation : Operation) (value : List Char) (index : Nat)
    (r : Record) :
    (Clause.ofParts field operation value index).filter.evaluate r =
      .ok (operation.holds (r.locate (String.ofList (Text.trim field))) (literal (String.ofList (Text.trim value)))) :=
  Clause.evaluate_eq _ r

/-- What a word says whose field is not blank and has neither `=` nor `!` in it. With `!=` it is the inequality of the
trimmed field and the trimmed value, whatever the value is. With `=` it is their equality exactly if there is no `!=` in
the value; a value with `!=` is split there, and what stands before it is taken into the field. A filter that is read
judges every record by the value at its field. -/
theorem word_says_comparison {field : String} (named : Text.trim field.toList ≠ [])
    (plain : '=' ∉ field.toList ∧ '!' ∉ field.toList) (value : String) (index : Nat) :
    let clause (operation : Operation) := Clause.ofParts field.toList operation value.toList index
    filterOf (field ++ "!=" ++ value) index = .ok (clause .neq).filter ∧
    (filterOf (field ++ "=" ++ value) index = .ok (clause .eq).filter ↔ ¬ ['!', '='] <:+: value.toList) ∧
    (∀ before after, value = before ++ "!=" ++ after → ¬ ['!', '='] <:+: before.toList →
      filterOf (field ++ "=" ++ value) index =
        .ok (Clause.ofParts (field ++ "=" ++ before).toList .neq after.toList index).filter) ∧
    ∀ operation (r : Record), (clause operation).filter.evaluate r =
      .ok (operation.holds (r.locate (String.ofList (Text.trim field.toList)))
        (literal (String.ofList (Text.trim value.toList)))) := by
  intro clause
  have unequal : (field ++ "!=" ++ value).toList = field.toList ++ '!' :: '=' :: value.toList := by simp
  have equal : (field ++ "=" ++ value).toList = field.toList ++ '=' :: value.toList := by simp
  have read := filterParts?_equal plain value.toList
  rw [← equal] at read
  -- A value that is cut gives an inequality at a longer field.
  have split {before after : List Char} (cut : Text.cut? ['!', '='] value.toList = some (before, after)) :
      filterOf (field ++ "=" ++ value) index =
        .ok (Clause.ofParts (field.toList ++ '=' :: before) .neq after index).filter := by
    rw [cut] at read
    exact filterOf_of_parts read (trim_ne_nil_of_append named _) index
  refine ⟨?_, ⟨fun taken inside => ?_, fun absent => ?_⟩, fun before after whole absent => ?_, fun operation r => ?_⟩
  · exact filterOf_of_parts (unequal ▸ filterParts?_unequal plain.2 value.toList) named index
  · cases cut : Text.cut? ['!', '='] value.toList with
    | none => exact (Text.cut?_eq_none_iff (List.cons_ne_nil _ _)).mp cut inside
    | some parts =>
      rw [split cut, Except.ok.injEq] at taken
      cases Clause.operation_of_filter_eq taken
  · rw [(Text.cut?_eq_none_iff (List.cons_ne_nil _ _)).mpr absent] at read
    exact filterOf_of_parts read named index
  · have cut : Text.cut? ['!', '='] value.toList = some (before.toList, after.toList) := by
      have shape : value.toList = before.toList ++ '!' :: '=' :: after.toList := by simp [whole]
      rw [shape]
      exact Text.cut?_append_pair (by decide) absent _
    rw [split cut]
    simp
  · exact Clause.evaluate_ofParts ..

/-- A field with blanks around it and values with both marks, without `!=`, and split at it. -/
theorem word_says_comparison_of_marks :
    let field := " meta.note "
    Text.trim field.toList = "meta.note".toList ∧ Text.trim field.toList ≠ [] ∧
    ('=' ∉ field.toList ∧ '!' ∉ field.toList) ∧
    filterOf " meta.note != a=b!=c" 3 = .ok (Clause.ofParts field.toList .neq " a=b!=c".toList 3).filter ∧
    ¬ ['!', '='] <:+: "!3".toList ∧
    filterOf " meta.note =!3" 3 = .ok (Clause.ofParts field.toList .eq "!3".toList 3).filter ∧
    ¬ ['!', '='] <:+: " a=b".toList ∧
    filterOf " meta.note = a=b!=true" 3 =
      .ok (Clause.ofParts " meta.note = a=b".toList .neq "true".toList 3).filter := by
  intro field
  have trimmed : Text.trim field.toList = "meta.note".toList := by decide +kernel
  have named : Text.trim field.toList ≠ [] := by decide +kernel
  have plain : '=' ∉ field.toList ∧ '!' ∉ field.toList := by decide +kernel
  have single : ¬ ['!', '='] <:+: "!3".toList := by decide +kernel
  have early : ¬ ['!', '='] <:+: " a=b".toList := by decide +kernel
  obtain ⟨unequal, -⟩ := word_says_comparison named plain " a=b!=c" 3
  obtain ⟨-, equal, -⟩ := word_says_comparison named plain "!3" 3
  obtain ⟨-, -, split, -⟩ := word_says_comparison named plain " a=b!=true" 3
  exact ⟨trimmed, named, plain, unequal, single, equal.mpr single, early, split " a=b" "true" rfl early⟩

/-- An equality with `!=` in its value is taken for an inequality at another field. -/
theorem mark_in_value_splits_word :
    let field := "note"
    let value := "a!=b"
    Text.trim field.toList ≠ [] ∧ '=' ∉ field.toList ∧ '!' ∉ field.toList ∧
    filterOf (field ++ "=" ++ value) 0 = .ok (Clause.ofParts "note=a".toList .neq "b".toList 0).filter ∧
    filterOf (field ++ "=" ++ value) 0 ≠ .ok (Clause.ofParts field.toList .eq value.toList 0).filter := by
  intro field value
  have parts : filterParts? (field ++ "=" ++ value).toList = some ("note=a".toList, .neq, "b".toList) := by
    decide +kernel
  have taken := filterOf_of_parts parts (by decide +kernel) 0
  refine ⟨by decide +kernel, by decide +kernel, by decide +kernel, taken, fun same => ?_⟩
  rw [taken, Except.ok.injEq] at same
  cases Clause.operation_of_filter_eq same

end RunQuery.CommandLine
