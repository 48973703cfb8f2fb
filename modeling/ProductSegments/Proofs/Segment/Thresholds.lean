import ProductSegments.Proofs.Rule.Operators
import ProductSegments.Proofs.Segment.Selection
import ProductSegments.Proofs.Value.Order

/-! # Moving the threshold of a rule

  A rule with `>`, `>=`, `<` or `<=` asks for values on one side of its literal.
  Moving the literal away from that side leaves no product out that was selected
  before. Over a strict move, the products that reach the one literal are on the
  strict side of the other.

  - `Catalog.selectOne_sublist`: what is related to one value and what to another.
  - `Segmenter.evaluate_thresholds`: two literals of a field, one at most the other.
-/

namespace ProductSegments

/-- If every value that one operator relates to `v` is related to `v'` by another one,
    the products of the first are among those of the second. -/
theorem Catalog.selectOne_sublist {catalog : Catalog} {field : String} {op op' : Operator}
    {v v' : Value} (hop : op ≠ .ne) (hop' : op' ≠ .ne)
    (h : ∀ w, op.Relates w v → op'.Relates w v') :
    (catalog.selectOne field op v).Sublist (catalog.selectOne field op' v') := by
  apply List.monotone_filter_right
  intro product
  simp only [Predicate.matchesProduct_ofComparisons_singleton_iff, Comparison.SatisfiedBy,
    Operator.holdsAmong_iff hop, Operator.holdsAmong_iff hop']
  intro ⟨w, hw, hrelates⟩
  exact ⟨w, hw, h w hrelates⟩

namespace Segmenter

open Rule (writeLine)

/-- **Thresholds.** Let a field compile with two literals, all of them bare and on one
    line, and the value of the first be at most that of the second. Then all
    operators can be evaluated with both. What is above the second literal is
    above the first, with `>` and with `>=`, and what is below the first is below
    the second, with `<` and with `<=`. If the first value is less than the second,
    `>=` with the second literal asks for no less than `>` with the first one, and
    `<=` with the first for no less than `<` with the second. -/
theorem evaluate_thresholds (s : Segmenter Catalog) (field literal₁ literal₂ : String)
    (v₁ v₂ : Value) (hfield : Text.trimmed field = field) (hfieldlf : '\n' ∉ field.toList)
    (hliteral₁ : Text.trimmed literal₁ = literal₁) (hliterallf₁ : '\n' ∉ literal₁.toList)
    (hliteral₂ : Text.trimmed literal₂ = literal₂) (hliterallf₂ : '\n' ∉ literal₂.toList)
    (h₁ : ∃ p, Rule.compile s.schema (writeLine field .eq literal₁) = .ok p ∧
      p.get? field = some (.equals v₁))
    (h₂ : ∃ p, Rule.compile s.schema (writeLine field .eq literal₂) = .ok p ∧
      p.get? field = some (.equals v₂))
    (hle : v₁.AtMost v₂) :
    ∃ R₁ R₂ : Operator → List Product,
      (∀ op, ∃ r, (s.evaluate (writeLine field op literal₁)).value = .ok r ∧
        r.products = R₁ op) ∧
      (∀ op, ∃ r, (s.evaluate (writeLine field op literal₂)).value = .ok r ∧
        r.products = R₂ op) ∧
      (R₂ .gt).Sublist (R₁ .gt) ∧ (R₂ .ge).Sublist (R₁ .ge) ∧
      (R₁ .lt).Sublist (R₂ .lt) ∧ (R₁ .le).Sublist (R₂ .le) ∧
      (v₁.LessThan v₂ → (R₂ .ge).Sublist (R₁ .gt) ∧ (R₁ .le).Sublist (R₂ .lt)) := by
  have hgt : Operator.gt ≠ .ne := by decide
  have hge : Operator.ge ≠ .ne := by decide
  have hlt : Operator.lt ≠ .ne := by decide
  have hle' : Operator.le ≠ .ne := by decide
  obtain ⟨p₁, hp₁, hv₁⟩ := h₁
  obtain ⟨p₂, hp₂, hv₂⟩ := h₂
  have hcompile₁ := Rule.compile_writeLine_of_get? hfield hfieldlf hliteral₁ hliterallf₁ hp₁ hv₁
  have hcompile₂ := Rule.compile_writeLine_of_get? hfield hfieldlf hliteral₂ hliterallf₂ hp₂ hv₂
  refine ⟨(s.store.selectOne field · v₁), (s.store.selectOne field · v₂),
    ?_, ?_, ?_, ?_, ?_, ?_, ?_⟩
  · intro op
    exact evaluate_of_compile_singleton (hcompile₁ op)
  · intro op
    exact evaluate_of_compile_singleton (hcompile₂ op)
  · exact Catalog.selectOne_sublist hgt hgt fun w h => h.gt_of_atMost hle
  · exact Catalog.selectOne_sublist hge hge fun w h => h.ge_of_atMost hle
  · exact Catalog.selectOne_sublist hlt hlt fun w h => h.lt_of_atMost hle
  · exact Catalog.selectOne_sublist hle' hle' fun w h => h.le_of_atMost hle
  · intro hless
    constructor
    · exact Catalog.selectOne_sublist hge hgt fun w h => h.gt_of_lessThan hless
    · exact Catalog.selectOne_sublist hle' hlt fun w h => h.lt_of_lessThan hless

/-- One tag of a product is enough, and a letter outside ASCII comes behind all
    letters inside. -/
theorem evaluate_thresholds_on_tags :
    let s : Segmenter Catalog := ⟨Schema.catalog, ⟨
      [{ id := 1, title := "Tent", tags := ["camping", "übergröße"] },
       { id := 2, title := "Lamp", tags := ["sale"] }, { id := 3, title := "Rope" }]⟩⟩
    (Text.trimmed "tags" = "tags" ∧ '\n' ∉ "tags".toList ∧
      Text.trimmed "summer" = "summer" ∧ '\n' ∉ "summer".toList ∧
      Text.trimmed "über" = "über" ∧ '\n' ∉ "über".toList ∧
      (∃ p, Rule.compile s.schema (writeLine "tags" .eq "summer") = .ok p ∧
        p.get? "tags" = some (.equals (.string "summer"))) ∧
      (∃ p, Rule.compile s.schema (writeLine "tags" .eq "über") = .ok p ∧
        p.get? "tags" = some (.equals (.string "über"))) ∧
      (Value.string "summer").AtMost (.string "über")) ∧
    ∃ R₁ R₂ : Operator → List Product,
      (∀ op, ∃ r, (s.evaluate (writeLine "tags" op "summer")).value = .ok r ∧
        r.products = R₁ op) ∧
      (∀ op, ∃ r, (s.evaluate (writeLine "tags" op "über")).value = .ok r ∧
        r.products = R₂ op) ∧
      (R₂ .ge).Sublist (R₁ .gt) ∧ (R₁ .le).Sublist (R₂ .lt) := by
  intro s
  have hsummer : ∃ p, Rule.compile s.schema (writeLine "tags" .eq "summer") = .ok p ∧
      p.get? "tags" = some (.equals (.string "summer")) := ⟨_, rfl, rfl⟩
  have huber : ∃ p, Rule.compile s.schema (writeLine "tags" .eq "über") = .ok p ∧
      p.get? "tags" = some (.equals (.string "über")) := ⟨_, rfl, rfl⟩
  have hless : (Value.string "summer").LessThan (.string "über") := by
    show Text.bytes "summer" < Text.bytes "über"
    decide
  have hle : (Value.string "summer").AtMost (.string "über") := by
    show Text.bytes "summer" ≤ Text.bytes "über"
    decide
  obtain ⟨R₁, R₂, hR₁, hR₂, -, -, -, -, hstrict⟩ :=
    evaluate_thresholds s "tags" "summer" "über" (.string "summer") (.string "über") (by decide)
      (by decide) (by decide) (by decide) (by decide) (by decide) hsummer huber hle
  exact ⟨⟨by decide, by decide, by decide, by decide, by decide, by decide, hsummer, huber, hle⟩,
    R₁, R₂, hR₁, hR₂, hstrict hless⟩

end Segmenter

end ProductSegments
