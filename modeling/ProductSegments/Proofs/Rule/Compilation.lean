import ProductSegments.Proofs.Predicate.Fold
import ProductSegments.Proofs.Rule.Lines

/-! # How a text compiles

  A text compiles line by line. Since a line is its own only line, compiling a
  line as a text of its own says all about it:

  - `compile_eq_ok_iff`: a text compiles to the fold of its comparisons, one
    for each line.
  - `compile_eq_error_iff`: a text fails with the error of its first line that
    does not compile on its own.
-/

namespace ProductSegments

namespace Rule

variable {schema : Schema} {text line : String} {t : Tokens} {c : Comparison} {p : Predicate}
  {cs : List Comparison} {e : RuleError}

/-! ### One line -/

/-- The field that a rule line names, if it splits into tokens. -/
def namedField? (line : String) : Option String := (tokenizeLine line).toOption.map Tokens.field

/-- The fields that the lines of a text name, line by line. -/
def namedFields (text : String) : List String := (lines text).filterMap namedField?

/-- What a tokenized rule says has the rule's field and operator, and the value
    of its literal for the field's kind. -/
theorem comparison?_eq_ok_iff :
    comparison? schema t = .ok c ↔ ∃ kind, schema.get? t.field = some kind ∧ c.field = t.field ∧
      c.op.symbol = t.operator ∧ typedValue t kind = .ok c.value := by
  obtain ⟨field, op, v⟩ := c
  simp only [← Operator.ofSymbol?_eq_some_iff, Schema.get?_eq_some_iff]
  unfold comparison?
  cases hspec : schema.spec? t.field with
  | none =>
    constructor
    · intro h
      cases h
    · intro ⟨kind, h, _⟩
      cases h
  | some spec =>
    have hname : spec.name = t.field := Schema.name_of_spec? hspec
    cases Operator.ofSymbol? t.operator with
    | none =>
      constructor
      · intro h
        cases h
      · intro ⟨_, _, _, h, _⟩
        cases h
    | some op' =>
      -- the field and the operator are settled, only the literal can still fail
      have hvalue : (do return (⟨spec.name, op', ← typedValue t spec.kind⟩ : Comparison) :
          Except RuleFault Comparison) = .ok ⟨field, op, v⟩ ↔
          ∃ v', typedValue t spec.kind = .ok v' ∧
            (⟨spec.name, op', v'⟩ : Comparison) = ⟨field, op, v⟩ :=
        Outcome.bind_eq_ok_iff.trans (by simp only [pure, Except.pure, Except.ok.injEq])
      refine hvalue.trans ?_
      constructor
      · intro ⟨v', h, heq⟩
        cases heq
        exact ⟨spec.kind, by rw [← hname], hname, rfl, h⟩
      · intro ⟨kind, hkind, hfield, hop, h⟩
        cases hkind
        cases hfield
        cases hop
        exact ⟨v, h, rfl⟩

theorem compileLine_eq_ok_iff :
    compileLine schema line = .ok c ↔
      ∃ t, tokenizeLine line = .ok t ∧ comparison? schema t = .ok c := by
  unfold compileLine
  rw [Outcome.bind_eq_ok_iff]
  simp only [validate, Outcome.mapError_eq_ok_iff]

/-- A line names the field of its comparison. -/
theorem namedField?_of_compileLine (h : compileLine schema line = .ok c) :
    namedField? line = some c.field := by
  obtain ⟨t, ht, hc⟩ := compileLine_eq_ok_iff.mp h
  obtain ⟨_, -, hfield, -⟩ := comparison?_eq_ok_iff.mp hc
  unfold namedField?
  rw [ht, hfield]
  rfl

/-! ### A whole text -/

theorem compile_eq_ok_iff :
    compile schema text = .ok p ↔
      ∃ cs, List.Forall₂ (fun line c => compileLine schema line = .ok c) (lines text) cs ∧
        Predicate.ofComparisons cs = p := by
  unfold compile comparisons
  rw [Outcome.map_eq_ok_iff]
  simp only [Outcome.mapM_eq_ok_iff]

/-- The lines of a text that compiles name the fields of its comparisons. -/
theorem namedFields_eq_map
    (h : List.Forall₂ (fun line c => compileLine schema line = .ok c) (lines text) cs) :
    namedFields text = cs.map Comparison.field := by
  unfold namedFields
  generalize lines text = ls at h
  induction h with
  | nil => rfl
  | cons hline _ ih =>
    rw [List.filterMap_cons_some (namedField?_of_compileLine hline), ih]
    rfl

/-- As a text of its own, a line compiles to the clause of its comparison. -/
theorem compile_of_isLine (h : IsLine line) :
    compile schema line =
      (compileLine schema line).map fun c => Predicate.ofComparisons [c] := by
  unfold compile comparisons
  rw [lines_of_isLine h, List.mapM_cons]
  cases compileLine schema line <;> rfl

theorem exists_compile_of_isLine_iff (h : IsLine line) :
    (∃ p, compile schema line = .ok p) ↔ ∃ c, compileLine schema line = .ok c := by
  simp only [compile_of_isLine h, Outcome.map_eq_ok_iff]
  constructor
  · intro ⟨_, c, hc, _⟩
    exact ⟨c, hc⟩
  · intro ⟨c, hc⟩
    exact ⟨_, c, hc, rfl⟩

theorem compile_eq_error_of_isLine_iff (h : IsLine line) :
    compile schema line = .error e ↔ compileLine schema line = .error e := by
  rw [compile_of_isLine h, Outcome.map_eq_error_iff]

/-- A text compiles exactly when each of its lines does on its own. -/
theorem exists_compile_iff :
    (∃ p, compile schema text = .ok p) ↔ ∀ l ∈ lines text, ∃ p, compile schema l = .ok p := by
  have hlines : (∃ p, compile schema text = .ok p) ↔
      ∀ l ∈ lines text, ∃ c, compileLine schema l = .ok c := by
    rw [← Outcome.exists_mapM_eq_ok_iff]
    simp only [compile_eq_ok_iff, ← Outcome.mapM_eq_ok_iff]
    constructor
    · intro ⟨_, cs, hcs, _⟩
      exact ⟨cs, hcs⟩
    · intro ⟨cs, hcs⟩
      exact ⟨_, cs, hcs, rfl⟩
  rw [hlines]
  constructor
  · intro h l hl
    exact (exists_compile_of_isLine_iff (isLine_of_mem_lines hl)).mpr (h l hl)
  · intro h l hl
    exact (exists_compile_of_isLine_iff (isLine_of_mem_lines hl)).mp (h l hl)

/-- A text fails with the error of its first line that does not compile on its
    own, whatever stands behind that line. -/
theorem compile_eq_error_iff :
    compile schema text = .error e ↔ ∃ before line after, lines text = before ++ line :: after ∧
      (∀ l ∈ before, ∃ p, compile schema l = .ok p) ∧ compile schema line = .error e := by
  rw [compile, Outcome.map_eq_error_iff, comparisons, Outcome.mapM_eq_error_iff]
  have hline : ∀ {before line after}, lines text = before ++ line :: after →
      IsLine line ∧ ∀ l ∈ before, IsLine l := by
    intro before line after heq
    have hmem : ∀ l ∈ before ++ line :: after, IsLine l := by
      intro l hl
      rw [← heq] at hl
      exact isLine_of_mem_lines hl
    exact ⟨hmem line (by simp), fun l hl => hmem l (by simp [hl])⟩
  -- the split of the lines is the same on both sides, each line read alone or in the text
  constructor
  · intro ⟨before, line, after, heq, hbefore, herror⟩
    obtain ⟨hl, hls⟩ := hline heq
    refine ⟨before, line, after, heq, fun l hmem => ?_, ?_⟩
    · exact (exists_compile_of_isLine_iff (hls l hmem)).mpr (hbefore l hmem)
    · exact (compile_eq_error_of_isLine_iff hl).mpr herror
  · intro ⟨before, line, after, heq, hbefore, herror⟩
    obtain ⟨hl, hls⟩ := hline heq
    refine ⟨before, line, after, heq, fun l hmem => ?_, ?_⟩
    · exact (exists_compile_of_isLine_iff (hls l hmem)).mp (hbefore l hmem)
    · exact (compile_eq_error_of_isLine_iff hl).mp herror

end Rule

end ProductSegments
