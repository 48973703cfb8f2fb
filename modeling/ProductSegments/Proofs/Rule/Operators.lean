import ProductSegments.Proofs.Rule.Writing

/-! # One rule with each operator

  Whether a rule compiles does not depend on which of the six operators it is
  written with, nor does the value of its literal.

  - `FieldKind.Reads` says which value a kind of field makes of a literal.
  - `isField_and_isLiteral_of_compile`: what compiles with `=` is a field and a
    literal of its kind.
  - `compile_writeLine`: these compile with every operator, to a clause with the
    same value.
-/

namespace ProductSegments

/-- What a field of the kind makes of a literal. -/
def FieldKind.Reads : FieldKind → String → Value → Prop
  | .number, literal, v => ∃ x, Rule.coerce literal = .number x ∧ .number x = v
  | .boolean, literal, v => ∃ b, Rule.coerce literal = .boolean b ∧ .boolean b = v
  | .string, literal, v => .string literal = v
  | .enumeration allowed, literal, v => .string literal = v ∧ literal ∈ allowed.toList

namespace Rule

variable {schema : Schema} {field literal : String} {kind : FieldKind} {v : Value} {t : Tokens}
  {op : Operator} {c : Comparison} {p : Predicate}

/-- The value of a tokenized rule is what its literal alone is read as. -/
theorem typedValue_eq_ok_iff : typedValue t kind = .ok v ↔ kind.Reads t.literal v := by
  cases kind with
  | number =>
    simp only [typedValue, FieldKind.Reads]
    rcases coerce t.literal with x | b | s <;> simp
  | boolean =>
    simp only [typedValue, FieldKind.Reads]
    rcases coerce t.literal with x | b | s <;> simp
  | string => simp [typedValue, FieldKind.Reads]
  | enumeration allowed =>
    simp only [typedValue, FieldKind.Reads, Words.toList, ← Keyed.contains_iff]
    split <;> simp [*]

/-- What is read is what the field takes. -/
theorem takes_of_reads (hliteral : IsLiteral literal) (h : kind.Reads literal v) :
    kind.Takes v := by
  have hvalue : typedValue ⟨"", "", "", literal⟩ kind = .ok v := typedValue_eq_ok_iff.mpr h
  exact takes_of_typedValue hliteral hvalue

/-- A written rule compiles to its field, its operator and what the field makes
    of the literal. -/
theorem compileLine_writeLine_iff (hfield : IsField field) (hliteral : IsLiteral literal) :
    compileLine schema (writeLine field op literal) = .ok c ↔
      c.field = field ∧ c.op = op ∧
        ∃ kind, schema.get? field = some kind ∧ kind.Reads literal c.value := by
  rw [compileLine_eq_ok_iff]
  simp only [tokenizeLine_writeLine hfield hliteral, Except.ok.injEq, exists_eq_left',
    comparison?_eq_ok_iff, typedValue_eq_ok_iff]
  constructor
  · rintro ⟨kind, hkind, hc, hop, hvalue⟩
    exact ⟨hc, Operator.symbol_injective hop, kind, hkind, hvalue⟩
  · rintro ⟨hc, rfl, kind, hkind, hvalue⟩
    exact ⟨kind, hkind, hc, rfl, hvalue⟩

/-- As a text, a written rule compiles to one clause. -/
theorem compile_writeLine (hfield : IsField field) (hliteral : IsLiteral literal)
    (hkind : schema.get? field = some kind) (hvalue : kind.Reads literal v) (op : Operator) :
    compile schema (writeLine field op literal) = .ok (.ofComparisons [⟨field, op, v⟩]) := by
  have hline : compileLine schema (writeLine field op literal) = .ok ⟨field, op, v⟩ :=
    (compileLine_writeLine_iff hfield hliteral).mpr ⟨rfl, rfl, kind, hkind, hvalue⟩
  rw [compile_of_isLine (isLine_writeLine hfield hliteral), hline]
  rfl

/-- Bare texts that compile with `=` are a field and a literal of its kind. -/
theorem isField_and_isLiteral_of_compile (hfield : Text.trimmed field = field)
    (hfieldlf : '\n' ∉ field.toList) (hliteral : Text.trimmed literal = literal)
    (hliterallf : '\n' ∉ literal.toList)
    (h : compile schema (writeLine field .eq literal) = .ok p) :
    IsField field ∧ IsLiteral literal ∧
      ∃ kind v, schema.get? field = some kind ∧ kind.Reads literal v := by
  have hmem : '=' ∈ (writeLine field .eq literal).toList := by
    simp [toList_writeLine, Operator.symbol]
  have hlf : '\n' ∉ (writeLine field .eq literal).toList := by
    simp [toList_writeLine, Operator.symbol, hfieldlf, hliterallf]
  have hne : Text.trim (writeLine field .eq literal).toList ≠ [] :=
    List.ne_nil_of_mem (Text.mem_trim_of_mem hmem (by decide))
  -- the text is one line, though there may be blanks around it
  obtain ⟨cs, hcs, -⟩ := compile_eq_ok_iff.mp h
  rw [lines_of_not_mem hlf hne] at hcs
  obtain ⟨c, _, hc, -, -⟩ := List.forall₂_cons_left_iff.mp hcs
  obtain ⟨t, ht, -⟩ := compileLine_eq_ok_iff.mp hc
  obtain ⟨hisField, hisLiteral⟩ := isField_and_isLiteral_of_tokenizeLine hfield hfieldlf hliteral
    hliterallf (tokenizeLine_of_trimmed ht)
  rw [(isLine_writeLine hisField hisLiteral).trimmed] at hc
  obtain ⟨-, -, kind, hkind, hvalue⟩ := (compileLine_writeLine_iff hisField hisLiteral).mp hc
  exact ⟨hisField, hisLiteral, kind, c.value, hkind, hvalue⟩

/-- Bare texts that compile with `=` compile with every operator to the same value. -/
theorem compile_writeLine_of_get? (hfield : Text.trimmed field = field)
    (hfieldlf : '\n' ∉ field.toList) (hliteral : Text.trimmed literal = literal)
    (hliterallf : '\n' ∉ literal.toList)
    (h : compile schema (writeLine field .eq literal) = .ok p)
    (hget : p.get? field = some (.equals v)) (op : Operator) :
    compile schema (writeLine field op literal) = .ok (.ofComparisons [⟨field, op, v⟩]) := by
  obtain ⟨hisField, hisLiteral, kind, w, hkind, hvalue⟩ :=
    isField_and_isLiteral_of_compile hfield hfieldlf hliteral hliterallf h
  have hcompile := compile_writeLine hisField hisLiteral hkind hvalue
  obtain rfl : Predicate.ofComparisons [⟨field, .eq, w⟩] = p :=
    Except.ok.inj ((hcompile .eq).symm.trans h)
  have hself : (Predicate.ofComparisons [⟨field, .eq, w⟩]).get? field = some (.equals w) :=
    Keyed.get?_insert_self
  obtain rfl : w = v := Clause.equals.inj (Option.some.inj (hself.symm.trans hget))
  exact hcompile op

end Rule

end ProductSegments
