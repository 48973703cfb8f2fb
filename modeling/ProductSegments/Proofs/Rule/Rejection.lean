import ProductSegments.Proofs.Rule.Compilation
import ProductSegments.Proofs.Rule.Grammar
import ProductSegments.Schema.Declaration

/-! # Why rules are rejected

  A rejected rule is reported with its line and with what is wrong with it. The
  report says what is the case: a line is rejected with a fault exactly when it
  has this fault and none of those that are looked for before.

  - `Invalid` says which fault a tokenized rule has under a schema.
  - `Rejects` says which fault a line has.
  - `compileLine_eq_error_iff`: a line is rejected with the fault that it has.
  - `compile_eq_error_truthful`: the error of a whole text is that of one of its
    lines, which has the fault.
-/

namespace ProductSegments

/-! ### Faults -/

/-- Literals of the field are coerced to values of the kind. The other fields take
    their literals as written. -/
inductive FieldKind.Coerces : FieldKind → ValueKind → Prop where
  /-- To numbers. -/
  | number : Coerces .number .number
  /-- To truth values. -/
  | boolean : Coerces .boolean .boolean

namespace Rule

/-- The first fault of a tokenized rule, in the order field, operator, literal. -/
inductive Invalid (schema : Schema) (t : Tokens) : RuleFault → Prop where
  /-- The field is not declared. -/
  | unknownField (hfield : schema.get? t.field = none) :
      Invalid schema t (.unknownField t.field)
  /-- The field is declared and the operator is none of the six. -/
  | unsupportedOperator {kind : FieldKind} (hfield : schema.get? t.field = some kind)
      (hop : ∀ op : Operator, op.symbol ≠ t.operator) :
      Invalid schema t (.unsupportedOperator t.operator)
  /-- The field takes numbers or truth values, and the literal is not coerced to
      one. -/
  | typeMismatch {op : Operator} {kind : FieldKind} {expected : ValueKind}
      (hfield : schema.get? t.field = some kind) (hkind : kind.Coerces expected)
      (hop : op.symbol = t.operator) (hliteral : (coerce t.literal).kind ≠ expected) :
      Invalid schema t (.typeMismatch t.field t.literal expected)
  /-- The field is an enumeration and the literal is not among its values, which
      are listed in ascending order. -/
  | notAllowed {op : Operator} {allowed : Words}
      (hfield : schema.get? t.field = some (.enumeration allowed))
      (hop : op.symbol = t.operator) (hliteral : t.literal ∉ allowed.toList)
      (hascending : allowed.toList.Pairwise (· < ·)) :
      Invalid schema t (.invalidEnumValue t.field t.literal allowed.toList)

/-- The first fault of a rule line. -/
inductive Rejects (schema : Schema) (line : String) : RuleFault → Prop where
  /-- The line does not split into tokens. -/
  | malformed (h : ∀ t, tokenizeLine line ≠ .ok t) : Rejects schema line .malformed
  /-- The line splits into tokens with a fault. -/
  | invalid {t : Tokens} {fault : RuleFault} (ht : tokenizeLine line = .ok t)
      (h : Invalid schema t fault) : Rejects schema line fault

variable {schema : Schema} {text line : String} {t : Tokens} {kind : FieldKind}
  {fault : RuleFault} {e : RuleError}

/-! ### Checking tokens -/

theorem typedValue_eq_error_iff_of_coerces {expected : ValueKind} (h : kind.Coerces expected) :
    typedValue t kind = .error fault ↔
      (coerce t.literal).kind ≠ expected ∧ .typeMismatch t.field t.literal expected = fault := by
  cases h with
  | number =>
    unfold typedValue
    cases coerce t.literal <;> simp [Value.kind]
  | boolean =>
    unfold typedValue
    cases coerce t.literal <;> simp [Value.kind]

theorem typedValue_enumeration_eq_error_iff {allowed : Words} :
    typedValue t (.enumeration allowed) = .error fault ↔ t.literal ∉ allowed.toList ∧
      .invalidEnumValue t.field t.literal allowed.toList = fault := by
  simp only [typedValue, Words.toList, ← Keyed.contains_iff]
  split <;> simp [*]

/-- Behind a declared field and one of the operators only the literal can fail. -/
theorem comparison?_eq_error_iff_typedValue {op : Operator}
    (hfield : schema.get? t.field = some kind) (hop : op.symbol = t.operator) :
    comparison? schema t = .error fault ↔ typedValue t kind = .error fault := by
  have hsymbol : Operator.ofSymbol? t.operator = some op := Operator.ofSymbol?_eq_some_iff.mpr hop
  have hrest : comparison? schema t =
      (do return (⟨t.field, op, ← typedValue t kind⟩ : Comparison)) := by
    unfold comparison?
    rw [Schema.get?_eq_some_iff.mp hfield, hsymbol]
  rw [hrest, Outcome.bind_eq_error_iff]
  simp [pure, Except.pure]

/-- Tokens are rejected with the fault that they have. -/
theorem comparison?_eq_error_iff :
    comparison? schema t = .error fault ↔ Invalid schema t fault := by
  constructor
  · intro h
    -- the cases are split in the order of the checks
    cases hfield : schema.get? t.field with
    | none =>
      unfold comparison? at h
      rw [Schema.get?_eq_none_iff.mp hfield] at h
      cases h
      exact .unknownField hfield
    | some kind =>
      cases hsymbol : Operator.ofSymbol? t.operator with
      | none =>
        unfold comparison? at h
        rw [Schema.get?_eq_some_iff.mp hfield, hsymbol] at h
        cases h
        refine .unsupportedOperator hfield ?_
        intro op hop
        rw [Operator.ofSymbol?_eq_some_iff.mpr hop] at hsymbol
        cases hsymbol
      | some op =>
        have hop : op.symbol = t.operator := Operator.ofSymbol?_eq_some_iff.mp hsymbol
        rw [comparison?_eq_error_iff_typedValue hfield hop] at h
        cases kind with
        | number =>
          obtain ⟨hliteral, rfl⟩ := (typedValue_eq_error_iff_of_coerces .number).mp h
          exact .typeMismatch hfield .number hop hliteral
        | boolean =>
          obtain ⟨hliteral, rfl⟩ := (typedValue_eq_error_iff_of_coerces .boolean).mp h
          exact .typeMismatch hfield .boolean hop hliteral
        | string => cases h
        | enumeration allowed =>
          obtain ⟨hliteral, rfl⟩ := typedValue_enumeration_eq_error_iff.mp h
          exact .notAllowed hfield hop hliteral (Keyed.ascending_keys allowed)
  · intro h
    cases h with
    | unknownField hfield =>
      unfold comparison?
      rw [Schema.get?_eq_none_iff.mp hfield]
      rfl
    | unsupportedOperator hfield hop =>
      have hsymbol : Operator.ofSymbol? t.operator = none := by
        rw [Option.eq_none_iff_forall_ne_some]
        exact fun op h => hop op (Operator.ofSymbol?_eq_some_iff.mp h)
      unfold comparison?
      rw [Schema.get?_eq_some_iff.mp hfield, hsymbol]
      rfl
    | typeMismatch hfield hkind hop hliteral =>
      rw [comparison?_eq_error_iff_typedValue hfield hop]
      exact (typedValue_eq_error_iff_of_coerces hkind).mpr ⟨hliteral, rfl⟩
    | notAllowed hfield hop hliteral =>
      rw [comparison?_eq_error_iff_typedValue hfield hop]
      exact typedValue_enumeration_eq_error_iff.mpr ⟨hliteral, rfl⟩

/-! ### Checking lines -/

/-- A line is rejected with the fault that it has, and the error holds the line. -/
theorem compileLine_eq_error_iff :
    compileLine schema line = .error e ↔ e.line = line ∧ Rejects schema line e.fault := by
  obtain ⟨eline, fault⟩ := e
  unfold compileLine
  rw [Outcome.bind_eq_error_iff]
  simp only [validate, Outcome.mapError_eq_error_iff, comparison?_eq_error_iff]
  constructor
  · intro h
    rcases h with h | ⟨t, ht, fault', hfault, h⟩
    · cases eq_malformed_of_tokenizeLine h
      refine ⟨rfl, .malformed ?_⟩
      intro t ht
      rw [ht] at h
      cases h
    · cases h
      exact ⟨line_of_tokenizeLine ht, .invalid ht hfault⟩
  · rintro ⟨rfl, h⟩
    cases h with
    | malformed h =>
      cases htokens : tokenizeLine eline with
      | ok t => exact absurd htokens (h t)
      | error e => exact .inl (congrArg Except.error (eq_malformed_of_tokenizeLine htokens))
    | invalid ht hfault =>
      exact .inr ⟨_, ht, fault, hfault, by rw [line_of_tokenizeLine ht]⟩

/-- **Truthful errors.** The error with which a text fails holds one of the lines of
    the text, as it stands there. This line alone fails with the same error, and it
    has the fault that the error reports. -/
theorem compile_eq_error_truthful (schema : Schema) (text : String) (e : RuleError)
    (h : compile schema text = .error e) :
    IsLine e.line ∧ e.line.toList <:+: text.toList ∧ compile schema e.line = .error e ∧
      Rejects schema e.line e.fault := by
  obtain ⟨before, line, after, hlines, -, herror⟩ := compile_eq_error_iff.mp h
  have hmem : line ∈ lines text := by simp [hlines]
  have hline : IsLine line := isLine_of_mem_lines hmem
  obtain ⟨rfl, hrejects⟩ :=
    compileLine_eq_error_iff.mp ((compile_eq_error_of_isLine_iff hline).mp herror)
  exact ⟨hline, infix_of_mem_lines hmem, herror, hrejects⟩

/-- A line with blanks around it, behind a line that compiles and in front of one
    that fails with another fault. -/
theorem compile_eq_error_truthful_of_status :
    let text := "price > 5000\n\t stock_status = sold \r\nrating >= 4"
    let e : RuleError := ⟨"stock_status = sold", .invalidEnumValue "stock_status" "sold"
      ["instock", "onbackorder", "outofstock"]⟩
    compile Schema.catalog text = .error e ∧ IsLine e.line ∧ e.line.toList <:+: text.toList ∧
      compile Schema.catalog e.line = .error e ∧ Rejects Schema.catalog e.line e.fault := by
  intro text e
  have h : compile Schema.catalog text = .error e := by decide +kernel
  exact ⟨h, compile_eq_error_truthful Schema.catalog text e h⟩

end Rule

end ProductSegments
