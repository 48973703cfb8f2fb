import ProductSegments.Proofs.Product.Typing
import ProductSegments.Proofs.Rule.Operators
import ProductSegments.Proofs.Segment.Selection

/-! # One rule with each operator on a catalog

  The products that a rule selects, when it is written with one operator after
  the other and its field and literal stay the same. `!=` selects what `=` leaves
  out, `>=` and `<=` select what `=` and the strict operators do. On a field that
  holds one value at most, `<`, `=` and `>` share no product, and together they
  select those whose record has a value that the literal can be compared with.

  - `Operator.holdsAmong_one_of_three`: `<`, `=` and `>` among one value at most.
  - `Segmenter.evaluate_writeLine`: the six operators with one field and literal.
-/

namespace ProductSegments

namespace Operator

variable {Has : Value → Prop} {v : Value}

/-- Among one value at most, only one of `<`, `=` and `>` holds, and one does exactly
    when there is a value that can be compared. -/
theorem holdsAmong_one_of_three (hunique : ∀ u w, Has u → Has w → u = w)
    (hnan : v ≠ .number .nan) :
    ¬ (lt.HoldsAmong Has v ∧ eq.HoldsAmong Has v) ∧
    ¬ (lt.HoldsAmong Has v ∧ gt.HoldsAmong Has v) ∧
    ¬ (eq.HoldsAmong Has v ∧ gt.HoldsAmong Has v) ∧
    (lt.HoldsAmong Has v ∨ eq.HoldsAmong Has v ∨ gt.HoldsAmong Has v ↔
      ∃ w, Has w ∧ w.kind = v.kind ∧ w ≠ .number .nan) := by
  have hlt : Operator.lt ≠ .ne := by decide
  have heq : Operator.eq ≠ .ne := by decide
  have hgt : Operator.gt ≠ .ne := by decide
  have hthree (w : Value) : w.Below v ∨ w.SameAs v ∨ v.Below w ↔
      w.kind = v.kind ∧ w ≠ .number .nan := by
    rw [Value.below_or_sameAs_or_below_iff]
    simp [hnan]
  rw [holdsAmong_iff hlt, holdsAmong_iff heq, holdsAmong_iff hgt]
  refine ⟨?_, ?_, ?_, ?_⟩
  · intro ⟨⟨u, hu, hbelow⟩, ⟨w, hw, hsame⟩⟩
    rw [hunique u w hu hw] at hbelow
    exact Value.Below.not_sameAs hbelow hsame
  · intro ⟨⟨u, hu, hbelow⟩, ⟨w, hw, habove⟩⟩
    rw [hunique u w hu hw] at hbelow
    exact Value.Below.not_below hbelow habove
  · intro ⟨⟨u, hu, hsame⟩, ⟨w, hw, habove⟩⟩
    rw [hunique u w hu hw] at hsame
    exact Value.Below.not_sameAs habove hsame.symm
  · simp only [← exists_or, ← and_or_left]
    exact exists_congr fun w => and_congr_right fun _ => hthree w

end Operator

namespace Segmenter

open Rule (writeLine)

/-- **Six operators.** If a field and a literal, both bare and on one line, compile
    with `=`, they compile with every operator. Of the products on a catalog `!=`
    selects those that `=` does not, `>=` those that `>` or `=` does and `<=`
    those that `<` or `=` does. Unless the field is the tags, no product is
    selected by two of `<`, `=` and `>`, and one of them selects it exactly when
    it has a value under the field, of the kind of the literal's value and not
    NaN. -/
theorem evaluate_writeLine (s : Segmenter Catalog) (field literal : String)
    (hfield : Text.trimmed field = field) (hfieldlf : '\n' ∉ field.toList)
    (hliteral : Text.trimmed literal = literal) (hliterallf : '\n' ∉ literal.toList)
    (h : ∃ p, Rule.compile s.schema (writeLine field .eq literal) = .ok p) :
    ∃ (v : Value) (R : Operator → List Product),
      (∃ p, Rule.compile s.schema (writeLine field .eq literal) = .ok p ∧
        p.get? field = some (.equals v)) ∧
      (∀ op, (∃ p, Rule.compile s.schema (writeLine field op literal) = .ok p) ∧
        ∃ r, (s.evaluate (writeLine field op literal)).value = .ok r ∧ r.products = R op) ∧
      (∀ product, product ∈ R .ne ↔ product ∈ s.store.products ∧ product ∉ R .eq) ∧
      (∀ product, product ∈ R .ge ↔ product ∈ R .gt ∨ product ∈ R .eq) ∧
      (∀ product, product ∈ R .le ↔ product ∈ R .lt ∨ product ∈ R .eq) ∧
      (field ≠ "tags" → ∀ product,
        ¬ (product ∈ R .lt ∧ product ∈ R .eq) ∧
        ¬ (product ∈ R .lt ∧ product ∈ R .gt) ∧
        ¬ (product ∈ R .eq ∧ product ∈ R .gt) ∧
        (product ∈ R .lt ∨ product ∈ R .eq ∨ product ∈ R .gt ↔
          product ∈ s.store.products ∧
            ∃ w, product.Has field w ∧ w.kind = v.kind ∧ w ≠ .number .nan)) := by
  obtain ⟨p, hp⟩ := h
  obtain ⟨hisField, hisLiteral, kind, v, hkind, hvalue⟩ :=
    Rule.isField_and_isLiteral_of_compile hfield hfieldlf hliteral hliterallf hp
  have hcompile := Rule.compile_writeLine hisField hisLiteral hkind hvalue
  have hnan : v ≠ .number .nan := (Rule.takes_of_reads hisLiteral hvalue).ne_nan
  refine ⟨v, (s.store.selectOne field · v), ⟨_, hcompile .eq, Keyed.get?_insert_self⟩,
    ?_, ?_, ?_, ?_, ?_⟩
  · intro op
    exact ⟨⟨_, hcompile op⟩, evaluate_of_compile_singleton (hcompile op)⟩
  · intro product
    rw [Catalog.mem_selectOne_iff, Catalog.mem_selectOne_iff, Operator.holdsAmong_ne_iff, not_and]
    exact and_congr_right fun hproduct => by simp [hproduct]
  · intro product
    simp only [Catalog.mem_selectOne_iff, Operator.holdsAmong_ge_iff, and_or_left]
  · intro product
    simp only [Catalog.mem_selectOne_iff, Operator.holdsAmong_le_iff, and_or_left]
  · intro htags product
    have hunique (u w : Value) (hu : product.Has field u) (hw : product.Has field w) : u = w :=
      hu.eq_of_ne_tags htags hw
    obtain ⟨hlteq, hltgt, heqgt, hthree⟩ := Operator.holdsAmong_one_of_three hunique hnan
    simp only [Catalog.mem_selectOne_iff]
    rw [← and_or_left, ← and_or_left, hthree]
    exact ⟨fun h => hlteq ⟨h.1.2, h.2.2⟩, fun h => hltgt ⟨h.1.2, h.2.2⟩,
      fun h => heqgt ⟨h.1.2, h.2.2⟩, Iff.rfl⟩

/-- Products without a price and with NaN for a price are selected by `!=` and
    by none of the three orders; a greater price is selected by `>`. -/
theorem evaluate_writeLine_on_prices :
    let s : Segmenter Catalog := ⟨Schema.catalog, ⟨
      [{ id := 1, title := "Tent" }, { id := 2, title := "Lamp", price := some .nan },
       { id := 3, title := "Rope", price := some (Double.ofInt 40) }]⟩⟩
    (Text.trimmed "price" = "price" ∧ '\n' ∉ "price".toList ∧ Text.trimmed "25.5" = "25.5" ∧
      '\n' ∉ "25.5".toList ∧
      ∃ p, Rule.compile s.schema (writeLine "price" .eq "25.5") = .ok p) ∧
    ∃ R : Operator → List Product,
      (∀ op, ∃ r, (s.evaluate (writeLine "price" op "25.5")).value = .ok r ∧ r.products = R op) ∧
      (∀ product, product ∈ R .ne ↔ product ∈ s.store.products ∧ product ∉ R .eq) ∧
      (∀ product, product ∈ R .ge ↔ product ∈ R .gt ∨ product ∈ R .eq) ∧
      (∀ product ∈ s.store.products, product.price = none ∨ product.price = some .nan →
        product ∉ R .lt ∧ product ∉ R .eq ∧ product ∉ R .gt) ∧
      (∃ r, (s.evaluate "price > 25.5").value = .ok r ∧ r.products = R .gt) ∧
      (R .gt).map Product.id = [3] := by
  intro s
  have hok : (Rule.compile s.schema (writeLine "price" .eq "25.5")).isOk = true := by
    decide +kernel
  have hcompile := Outcome.exists_eq_ok_of_isOk hok
  have hids : ((s.evaluate "price > 25.5").value.map (·.products.map Product.id)).toOption =
      some [3] := by decide +kernel
  obtain ⟨v, R, -, hevaluate, hne, hge, -, hthree⟩ :=
    evaluate_writeLine s "price" "25.5" (by decide) (by decide) (by decide) (by decide) hcompile
  obtain ⟨r, hvalue, hproducts⟩ := (hevaluate .gt).2
  have hline : writeLine "price" .gt "25.5" = "price > 25.5" := by decide
  rw [hline] at hvalue
  refine ⟨⟨by decide, by decide, by decide, by decide, hcompile⟩, R,
    fun op => (hevaluate op).2, hne, hge, ?_, ⟨r, hvalue, hproducts⟩, ?_⟩
  · intro product _ hprice
    obtain ⟨-, -, -, hunion⟩ := hthree (by decide) product
    -- such a product has no value that the literal could be compared with
    have hnone : ¬ ∃ w, product.Has "price" w ∧ w.kind = v.kind ∧ w ≠ .number .nan := by
      intro ⟨w, hw, _, hnan⟩
      rw [← Product.mem_values_attributeAt_iff] at hw
      obtain ⟨x, hx, rfl⟩ := Attribute.mem_values_ofOption_iff.mp hw
      rcases hprice with hprice | hprice
      · rw [hprice] at hx
        cases hx
      · rw [hprice] at hx
        cases hx
        exact hnan rfl
    simpa [hnone] using hunion
  · rw [hvalue] at hids
    rw [← hproducts]
    exact Option.some.inj hids

end Segmenter

end ProductSegments
