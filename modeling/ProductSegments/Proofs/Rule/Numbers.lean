import ProductSegments.Proofs.Decimal.Positional
import ProductSegments.Proofs.Rule.Coercion
import ProductSegments.Proofs.Rule.Operators
import ProductSegments.Schema.Declaration

/-! # Numbers in rules

  A numeral can stand behind every operator as it is, and a field of numbers
  makes the nearest value of it. The text that a number is displayed as is such
  a numeral, with up to some three hundred digits and never an exponent, and it
  is the displayed number that is read from it.

  - `Rule.isLiteral_of_denotes`: numerals are literals.
  - `Rule.compile_writeLine_of_denotes`: what a rule with a numeral compiles to.
  - `Rule.coerce_display`: displayed numbers are read back.
-/

namespace ProductSegments

namespace Rule

variable {schema : Schema} {field literal : String} {negative : Bool} {q : ℚ} {d : Decimal}
  {m : Magnitude}

/-! ### Numerals as literals -/

/-- The characters of numerals can all stand in a literal. -/
theorem plain_of_isGrammarChar {c : Char} (h : Numeral.isGrammarChar c = true) :
    Text.isBlank c = false ∧ isSplitChar c = false := by
  simp only [Numeral.isGrammarChar, Bool.or_eq_true, beq_iff_eq] at h
  rcases h with (h | rfl) | rfl
  · exact plain_of_isNumeralChar h
  · decide
  · decide

theorem isLiteral_of_denotes (h : Numeral.Denotes literal.toList negative q) :
    IsLiteral literal := by
  apply isLiteral_of_plain
  · exact Numeral.ne_nil_of_denotes h
  · exact fun c hc => plain_of_isGrammarChar (Numeral.isGrammarChar_of_denotes h hc)

/-- A numeral is read as any decimal of its number is. -/
theorem coerce_of_denotes (h : Numeral.Denotes literal.toList negative (signedRat negative d.toRat))
    (hread : Double.ofDecimal negative d = .finite negative m) :
    coerce literal = .number (.finite negative m) := by
  have hliteral := isLiteral_of_denotes h
  have hnumeral : Double.ofNumeral ⟨negative, d⟩ = .finite negative m := hread
  obtain ⟨-, hlt, hnear⟩ := Double.ofNumeral_eq_finite_iff.mp hnumeral
  rw [coerce_eq_number_iff, Text.trim_eq_self_iff.mpr hliteral.bare, numberLiteral?_eq_some_iff]
  exact ⟨negative, m, _, rfl, h, hlt, hnear⟩

/-- On a field of numbers a numeral compiles with every operator, to the value that
    it is read as. -/
theorem compile_writeLine_of_denotes (hfield : IsField field)
    (hkind : schema.get? field = some .number)
    (h : Numeral.Denotes literal.toList negative (signedRat negative d.toRat))
    (hread : Double.ofDecimal negative d = .finite negative m) (op : Operator) :
    compile schema (writeLine field op literal) =
      .ok (.ofComparisons [⟨field, op, .number (.finite negative m)⟩]) := by
  apply compile_writeLine hfield (isLiteral_of_denotes h) hkind
  exact ⟨_, coerce_of_denotes h hread, rfl⟩

/-! ### Displayed numbers -/

theorem denotes_display (negative : Bool) (m : Magnitude) :
    Numeral.Denotes (Value.number (.finite negative m)).display.toList negative
      (signedRat negative (m.shortest .up).toRat) := by
  show Numeral.Denotes (String.ofList (Double.finite negative m).display).toList _ _
  rw [String.toList_ofList]
  exact Numeral.denotes_positional negative (m.shortest .up)

/-- **Displayed numbers.** The text that a finite number is displayed as is read as
    this very number, the sign of a zero included. As a price it compiles to the
    clause that asks for the number and nothing else. -/
theorem coerce_display (x : Double) (hx : x.isFinite = true) :
    coerce (Value.number x).display = .number x ∧
      ∃ p, compile Schema.catalog ("price = " ++ (Value.number x).display) = .ok p ∧
        p.entries = [("price", .equals (.number x))] := by
  obtain ⟨negative, m, rfl⟩ := Double.isFinite_iff.mp hx
  have hdenotes := denotes_display negative m
  have hread : Double.ofDecimal negative (m.shortest .up) = .finite negative m :=
    Double.ofDecimal_shortest .up m
  have hfield : IsField "price" := by decide
  have hkind : Schema.catalog.get? "price" = some .number := by decide
  exact ⟨coerce_of_denotes hdenotes hread, _,
    compile_writeLine_of_denotes hfield hkind hdenotes hread .eq, rfl⟩

/-- The negative number next to zero, which takes 324 places to write. -/
theorem coerce_display_on_subnormal :
    let x : Double := .finite true ⟨1, by decide +kernel⟩
    x.isFinite = true ∧ coerce (Value.number x).display = .number x ∧
      ∃ p, compile Schema.catalog ("price = " ++ (Value.number x).display) = .ok p ∧
        p.entries = [("price", .equals (.number x))] := by
  intro x
  exact ⟨rfl, coerce_display x rfl⟩

end Rule

end ProductSegments
