import ProductSegments.Proofs.Decimal.Numeral
import ProductSegments.Proofs.Double.Reading
import ProductSegments.Proofs.Rule.Compilation
import ProductSegments.Proofs.Rule.Tokens

/-! # Which predicates can be written

  A predicate is the compilation of some text exactly when each of its clauses
  could stand in a rule: its field is declared and can stand in front of an
  operator, its value is one that a literal of the field's kind can have, and
  equality has its own form.

  - `Writable` is the condition on one clause.
  - `writable_of_compile`: compiling yields nothing else.
  - `compile_write`: a predicate of such clauses is the compilation of its text.
-/

namespace ProductSegments

/-! ### Values and literals -/

/-- A literal of the kind can have this value. -/
def FieldKind.Takes : FieldKind → Value → Prop
  | .number, .number x => x.isFinite = true
  | .boolean, .boolean _ => True
  | .string, .string s => Rule.IsLiteral s
  | .enumeration allowed, .string s => Rule.IsLiteral s ∧ s ∈ allowed.toList
  | _, _ => False

/-- What a kind takes: finite numbers, truth values, or literals as they are. -/
theorem FieldKind.Takes.cases {kind : FieldKind} {v : Value} (h : kind.Takes v) :
    (kind = .number ∧ ∃ negative m, v = .number (.finite negative m)) ∨
      (kind = .boolean ∧ ∃ b, v = .boolean b) ∨
      (kind = .string ∧ ∃ s, v = .string s ∧ Rule.IsLiteral s) ∨
      ∃ allowed, kind = .enumeration allowed ∧
        ∃ s, v = .string s ∧ Rule.IsLiteral s ∧ s ∈ allowed.toList := by
  rcases v with x | b | s
  · rcases x with - | negative | ⟨negative, m⟩
    · cases kind <;> cases h
    · cases kind <;> cases h
    · rcases kind with - | - | - | allowed
      · exact .inl ⟨rfl, negative, m, rfl⟩
      all_goals exact h.elim
  · rcases kind with - | - | - | allowed
    · exact h.elim
    · exact .inr (.inl ⟨rfl, b, rfl⟩)
    all_goals exact h.elim
  · rcases kind with - | - | - | allowed
    · exact h.elim
    · exact h.elim
    · exact .inr (.inr (.inl ⟨rfl, s, rfl, h⟩))
    · exact .inr (.inr (.inr ⟨allowed, rfl, s, rfl, h⟩))

/-- The literal that a value is written as. A number that is not finite has no
    literal, and its display stands in for one. -/
def Value.written : Value → String
  | .number (.finite negative m) => String.ofList (Numeral.scientific ⟨negative, m.shortest .up⟩)
  | .number x => String.ofList x.display
  | .boolean b => if b then "true" else "false"
  | .string s => s

namespace Rule

variable {schema : Schema} {text line : String} {t : Tokens} {kind : FieldKind} {v : Value}
  {c : Comparison} {p : Predicate}

/-- Numbers come out of literals finite. -/
theorem isFinite_of_coerce {literal : String} {x : Double} (h : coerce literal = .number x) :
    x.isFinite = true := by
  simp only [coerce] at h
  split at h
  · cases h
  · split at h
    · cases h
    · split at h
      · next y hy =>
        cases h
        unfold numberLiteral? at hy
        exact (Option.filter_eq_some_iff.mp hy).2
      · cases h

/-- Whatever the kind of a field makes of a literal is a value that it takes. -/
theorem takes_of_typedValue (hliteral : IsLiteral t.literal) (h : typedValue t kind = .ok v) :
    kind.Takes v := by
  cases kind with
  | number =>
    simp only [typedValue] at h
    split at h
    · next x hx =>
      cases h
      exact isFinite_of_coerce hx
    · cases h
  | boolean =>
    simp only [typedValue] at h
    split at h
    · cases h
      trivial
    · cases h
  | string =>
    cases h
    exact hliteral
  | enumeration allowed =>
    simp only [typedValue] at h
    split at h
    · next hmem =>
      cases h
      exact ⟨hliteral, Keyed.contains_iff.mp hmem⟩
    · cases h

/-! ### Writing values -/

/-- A numeral holds neither blanks nor characters that split a rule. -/
theorem plain_of_isNumeralChar {c : Char} (h : Numeral.isNumeralChar c = true) :
    Text.isBlank c = false ∧ isSplitChar c = false := by
  simp only [Numeral.isNumeralChar, Bool.or_eq_true, beq_iff_eq] at h
  rcases h with ((hdigit | rfl) | rfl) | rfl
  · -- of the digits each one is looked at
    have hdigits : ∀ k < 10, Text.isBlank (Char.ofNat (48 + k)) = false ∧
        isSplitChar (Char.ofNat (48 + k)) = false := by decide
    obtain ⟨k, hk, rfl⟩ := Numeral.exists_eq_of_isDigit hdigit
    exact hdigits k hk
  · decide
  · decide
  · decide

/-- A text of characters that are neither blank nor split a rule is a literal. -/
theorem isLiteral_of_plain {literal : String} (hne : literal.toList ≠ [])
    (h : ∀ c ∈ literal.toList, Text.isBlank c = false ∧ isSplitChar c = false) :
    IsLiteral literal := by
  refine ⟨⟨?_, ?_, ?_⟩, ?_⟩
  · rintro rfl
    exact hne rfl
  · rw [Text.trimmed_eq_self_iff]
    exact Text.bare_of_forall fun c hc => (h c hc).1
  · intro hlf
    have hblank := (h '\n' hlf).1
    rw [Text.isBlank_lf] at hblank
    cases hblank
  · exact fun c hc => (h c hc).2

theorem isLiteral_scientific (n : Numeral) : IsLiteral (String.ofList n.scientific) := by
  apply isLiteral_of_plain
  · rw [String.toList_ofList]
    exact Numeral.scientific_ne_nil n
  · intro c hc
    rw [String.toList_ofList] at hc
    exact plain_of_isNumeralChar (Numeral.isNumeralChar_of_mem_scientific hc)

/-- A written number is read back. -/
theorem coerce_scientific (negative : Bool) (m : Magnitude) (tie : Tie) :
    coerce (String.ofList (Numeral.scientific ⟨negative, m.shortest tie⟩)) =
      .number (.finite negative m) := by
  have hliteral := isLiteral_scientific ⟨negative, m.shortest tie⟩
  have hread : numberLiteral? (Numeral.scientific ⟨negative, m.shortest tie⟩) =
      some (.finite negative m) := by
    unfold numberLiteral?
    rw [Numeral.read?_scientific, Option.map_some, Double.ofNumeral, Double.ofDecimal_shortest]
    rfl
  -- the names of the truth values start with letters that no numeral holds
  have hname : ∀ (c : Char) (cs : List Char), Numeral.isNumeralChar c = false →
      String.ofList (Numeral.scientific ⟨negative, m.shortest tie⟩) ≠ String.ofList (c :: cs) := by
    intro c cs hc heq
    have hmem : c ∈ Numeral.scientific ⟨negative, m.shortest tie⟩ := by
      rw [String.ofList_injective heq]
      exact List.mem_cons_self
    rw [Numeral.isNumeralChar_of_mem_scientific hmem] at hc
    cases hc
  have htrue := hname 't' ['r', 'u', 'e'] (by decide)
  have hfalse := hname 'f' ['a', 'l', 's', 'e'] (by decide)
  simp only [coerce]
  rw [hliteral.trimmed, if_neg htrue, if_neg hfalse, String.toList_ofList, hread]

theorem isLiteral_written (h : kind.Takes v) : IsLiteral v.written := by
  rcases h.cases with ⟨-, negative, m, rfl⟩ | ⟨-, b, rfl⟩ | ⟨-, s, rfl, hs⟩ | ⟨_, -, s, rfl, hs, -⟩
  · exact isLiteral_scientific _
  · have hplain : (Value.boolean b).written.toList.all (!isSplitChar ·) = true := by
      cases b <;> decide
    refine ⟨⟨?_, ?_, ?_⟩, ?_⟩
    · cases b <;> decide
    · cases b <;> decide
    · cases b <;> decide
    · intro c hc
      simpa using List.all_eq_true.mp hplain c hc
  · exact hs
  · exact hs

/-- A field's kind takes a written value back from its literal. -/
theorem typedValue_written (h : kind.Takes v) (ht : t.literal = v.written) :
    typedValue t kind = .ok v := by
  unfold typedValue
  rw [ht]
  rcases h.cases with ⟨rfl, negative, m, rfl⟩ | ⟨rfl, b, rfl⟩ | ⟨rfl, s, rfl, -⟩ |
    ⟨allowed, rfl, s, rfl, -, hs⟩
  · simp only [Value.written, coerce_scientific]
  · have hb : coerce (Value.boolean b).written = .boolean b := by cases b <;> decide
    simp only [hb]
  · rfl
  · exact if_pos (Keyed.contains_iff.mpr hs)

/-! ### Writable predicates -/

/-- A clause on a field that a rule of the schema can put there. -/
structure Writable (schema : Schema) (field : String) (clause : Clause) : Prop where
  /-- The field can stand in front of an operator. -/
  isField : IsField field
  /-- The field is declared, and its kind takes the value. -/
  takes : ∃ kind, schema.get? field = some kind ∧ kind.Takes clause.value
  /-- Equality has its own form. -/
  normal : ∀ v, clause ≠ .compare .eq v

/-- The clause of a line that compiles can be written. -/
theorem writable_of_compileLine (hline : IsLine line) (h : compileLine schema line = .ok c) :
    Writable schema c.field c.clause := by
  obtain ⟨t, ht, hc⟩ := compileLine_eq_ok_iff.mp h
  obtain ⟨kind, hkind, hfield, -, hvalue⟩ := comparison?_eq_ok_iff.mp hc
  have htakes : kind.Takes c.value :=
    takes_of_typedValue (isLiteral_of_tokenizeLine hline ht) hvalue
  refine ⟨?_, ⟨kind, ?_, ?_⟩, c.clause_ne_compare_eq⟩
  · rw [hfield]
    exact isField_of_tokenizeLine hline ht
  · rw [hfield]
    exact hkind
  · rw [Comparison.value_clause]
    exact htakes

/-- Compiling yields writable clauses only. -/
theorem writable_of_compile (h : compile schema text = .ok p) :
    ∀ e ∈ p.entries, Writable schema e.1 e.2 := by
  obtain ⟨cs, hcs, rfl⟩ := compile_eq_ok_iff.mp h
  intro e he
  obtain ⟨c, hc, hfield, hclause⟩ := Predicate.exists_of_mem_ofComparisons he
  obtain ⟨line, hline, hcompiles⟩ := Outcome.exists_of_mem_right hcs hc
  rw [← hfield, ← hclause]
  exact writable_of_compileLine (isLine_of_mem_lines hline) hcompiles

/-! ### Writing predicates -/

/-- The line that a clause on a field is written as. -/
def writeClause (field : String) (clause : Clause) : String :=
  writeLine field clause.operator clause.value.written

/-- The text that a predicate is written as, a line a clause. -/
def write (p : Predicate) : String :=
  "\n".intercalate (p.entries.map fun e => writeClause e.1 e.2)

variable {field : String} {clause : Clause}

theorem isLine_writeClause (h : Writable schema field clause) :
    IsLine (writeClause field clause) := by
  obtain ⟨kind, -, htakes⟩ := h.takes
  exact isLine_writeLine h.isField (isLiteral_written htakes)

/-- A written clause compiles to its comparison. -/
theorem compileLine_writeClause (h : Writable schema field clause) :
    compileLine schema (writeClause field clause) =
      .ok ⟨field, clause.operator, clause.value⟩ := by
  obtain ⟨kind, hkind, htakes⟩ := h.takes
  rw [compileLine_eq_ok_iff]
  refine ⟨_, tokenizeLine_writeLine h.isField (isLiteral_written htakes), ?_⟩
  rw [comparison?_eq_ok_iff]
  exact ⟨kind, hkind, rfl, rfl, typedValue_written htakes rfl⟩

/-- A literal that starts with `!` stays apart from the operator. -/
example : writeClause "title" (.compare .ne (.string "!sale")) = "title != !sale" := by decide

/-- A predicate of writable clauses is the compilation of the text that it is
    written as. -/
theorem compile_write (h : ∀ e ∈ p.entries, Writable schema e.1 e.2) :
    compile schema (write p) = .ok p := by
  -- every written clause is a line, so the text has these lines and no others
  have hlines : lines (write p) = p.entries.map fun e => writeClause e.1 e.2 := by
    apply lines_intercalate_of_isLine
    intro l hl
    obtain ⟨e, he, rfl⟩ := List.mem_map.mp hl
    exact isLine_writeClause (h e he)
  rw [compile_eq_ok_iff, hlines]
  refine ⟨p.comparisons, ?_, ?_⟩
  · unfold Predicate.comparisons
    rw [List.forall₂_map_left_iff, List.forall₂_map_right_iff, List.forall₂_same]
    exact fun e he => compileLine_writeClause (h e he)
  · exact Predicate.ofComparisons_comparisons fun e he => (h e he).normal

/-- **Image of the compiler.** A predicate is the compilation of some text
    exactly when each of its clauses can be written. -/
theorem exists_compile_eq_iff_writable (schema : Schema) (p : Predicate) :
    (∃ text, compile schema text = .ok p) ↔ ∀ e ∈ p.entries, Writable schema e.1 e.2 := by
  -- any text will do in the one direction, in the other it is the written one
  constructor
  · intro ⟨text, h⟩
    exact writable_of_compile h
  · intro h
    exact ⟨write p, compile_write h⟩

end Rule

end ProductSegments
