import ProductSegments.Proofs.Rule.Joining
import ProductSegments.Proofs.Segment.Evaluation
import ProductSegments.Sample.Report
import ProductSegments.Schema.Declaration

/-! # Segments of segments

  The products that a segment selects make a catalog, from which a second segment
  can be selected. It does not matter which of two segments is selected first, and
  two texts that name no field in common select by one joined text what they select
  one after the other.
-/

namespace ProductSegments

namespace Segmenter

/-- **Narrowing.** Of two texts that compile, each selects from what the other has
    selected the same products in the same order, whichever is evaluated first. If
    no field is named by lines of both, these are the products that the joined text
    selects. -/
theorem evaluate_narrowed (schema : Schema) (c : Catalog) (a b : String)
    (ha : ∃ p, Rule.compile schema a = .ok p) (hb : ∃ q, Rule.compile schema b = .ok q) :
    ∃ ra rb rab rba : SegmentResult,
      (evaluate ⟨schema, c⟩ a).value = .ok ra ∧
      (evaluate ⟨schema, c⟩ b).value = .ok rb ∧
      (evaluate ⟨schema, Catalog.mk ra.products⟩ b).value = .ok rab ∧
      (evaluate ⟨schema, Catalog.mk rb.products⟩ a).value = .ok rba ∧
      rab.products = rba.products ∧
      ((∀ field ∈ Rule.namedFields a, field ∉ Rule.namedFields b) →
        ∃ r, (evaluate ⟨schema, c⟩ (a ++ "\n" ++ b)).value = .ok r ∧
          r.products = rab.products) := by
  obtain ⟨p, hp⟩ := ha
  obtain ⟨q, hq⟩ := hb
  have hvalue {text : String} {p : Predicate} (h : Rule.compile schema text = .ok p)
      (c : Catalog) : (evaluate ⟨schema, c⟩ text).value =
        .ok (.ofFound p (c.products.filter p.matchesProduct)) :=
    value_evaluate_of_ok h
  refine ⟨_, _, _, _, hvalue hp c, hvalue hq c, hvalue hq _, hvalue hp _, ?_, ?_⟩
  · show (c.products.filter p.matchesProduct).filter q.matchesProduct =
      (c.products.filter q.matchesProduct).filter p.matchesProduct
    rw [List.filter_filter, List.filter_filter]
    simp only [Bool.and_comm]
  · intro hfields
    obtain ⟨r, hr, hmatches⟩ := Rule.exists_compile_append_lf_of_disjoint hp hq hfields
    refine ⟨_, hvalue hr c, ?_⟩
    show c.products.filter r.matchesProduct =
      (c.products.filter p.matchesProduct).filter q.matchesProduct
    rw [List.filter_filter]
    exact List.filter_congr fun product _ => by rw [hmatches, Bool.and_comm]

/-- Two lines on the price and one on the stock status, where the second line on the
    price counts in the joined text too. -/
theorem evaluate_narrowed_from_sample :
    let a := "price > 5000\nprice < 7000"
    let b := "stock_status = instock"
    (∃ p, Rule.compile Schema.catalog a = .ok p) ∧ (∃ q, Rule.compile Schema.catalog b = .ok q) ∧
      (∀ field ∈ Rule.namedFields a, field ∉ Rule.namedFields b) ∧
      ∃ ra rb rab rba r : SegmentResult,
        (evaluate ⟨Schema.catalog, Catalog.sample⟩ a).value = .ok ra ∧
        (evaluate ⟨Schema.catalog, Catalog.sample⟩ b).value = .ok rb ∧
        (evaluate ⟨Schema.catalog, Catalog.mk ra.products⟩ b).value = .ok rab ∧
        (evaluate ⟨Schema.catalog, Catalog.mk rb.products⟩ a).value = .ok rba ∧
        (evaluate ⟨Schema.catalog, Catalog.sample⟩ (a ++ "\n" ++ b)).value = .ok r ∧
        rab.products = rba.products ∧ r.products = rab.products := by
  intro a b
  have hoka : (Rule.compile Schema.catalog a).isOk = true := by decide +kernel
  have hokb : (Rule.compile Schema.catalog b).isOk = true := by decide +kernel
  have ha := Outcome.exists_eq_ok_of_isOk hoka
  have hb := Outcome.exists_eq_ok_of_isOk hokb
  have hfields : ∀ field ∈ Rule.namedFields a, field ∉ Rule.namedFields b := by decide +kernel
  obtain ⟨ra, rb, rab, rba, hra, hrb, hrab, hrba, hsame, hjoined⟩ :=
    evaluate_narrowed Schema.catalog Catalog.sample a b ha hb
  obtain ⟨r, hr, hproducts⟩ := hjoined hfields
  exact ⟨ha, hb, hfields, ra, rb, rab, rba, r, hra, hrb, hrab, hrba, hr, hsame, hproducts⟩

end Segmenter

end ProductSegments
