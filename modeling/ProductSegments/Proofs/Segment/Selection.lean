import ProductSegments.Proofs.Rule.Grammar
import ProductSegments.Proofs.Rule.Layout
import ProductSegments.Proofs.Rule.Operators
import ProductSegments.Proofs.Segment.Evaluation
import ProductSegments.Sample.Report
import ProductSegments.Schema.Declaration

/-! # What a segment selects

  Evaluated on a catalog, rule text selects the products that satisfy every
  line that counts. A line counts unless a later line names its field, and it
  is satisfied when its operator holds among the values that the record of a
  product has under the field.

  - `Rule.Survives` are the lines that count, `Rule.SatisfiedBy` what they ask for.
  - `Rule.matchesProduct_iff_of_compile`: a predicate asks for this.
  - `Catalog.selectOne` are the products of a single comparison.
  - `Segmenter.evaluate_selects`: what is selected, and with which status.
-/

open Classical

namespace ProductSegments

/-! ### Lines that count -/

namespace Rule

/-- The line names the field that is written in front of its operator. -/
def Names (line field : String) : Prop :=
  ∃ parts : LineParts, parts.text = line ∧ Text.trimmed parts.before = field

/-- A line that the text lays out counts when no line behind it names its field. -/
def Survives (text line : String) : Prop :=
  ∃ before after pieces : List String,
    (∀ l ∈ before ++ line :: after, IsLine l) ∧ LaysOut (before ++ line :: after) pieces ∧
      "\n".intercalate pieces = text ∧
      ∀ l ∈ after, ∀ field, Names line field → ¬ Names l field

/-- A product satisfies a rule line when the operator that is written in the line
    holds between the values that the product has under the field and the value of
    the literal. -/
def SatisfiedBy (schema : Schema) (line : String) (product : Product) : Prop :=
  ∃ (parts : LineParts) (kind : FieldKind) (op : Operator) (v : Value),
    parts.text = line ∧ schema.get? (Text.trimmed parts.before) = some kind ∧
    op.symbol = parts.operator ∧ kind.Reads (Text.trimmed parts.after) v ∧
    op.HoldsAmong (product.Has (Text.trimmed parts.before)) v

variable {schema : Schema} {text line : String} {c : Comparison} {p : Predicate}
  {product : Product}

theorem names_iff {field : String} : Names line field ↔ namedField? line = some field := by
  constructor
  · rintro ⟨parts, rfl, rfl⟩
    unfold namedField?
    rw [parts.tokenizeLine_text]
    rfl
  · intro h
    unfold namedField? at h
    cases ht : tokenizeLine line with
    | error e =>
      rw [ht] at h
      cases h
    | ok t =>
      rw [ht] at h
      obtain ⟨parts, hline, rfl⟩ := exists_parts_of_tokenizeLine ht
      exact ⟨parts, hline, Option.some.inj h⟩

/-- Where every line names a field, the lines that count are those that are read
    last with their field. -/
theorem survives_iff (h : ∀ l ∈ lines text, ∃ field, namedField? l = some field) :
    Survives text line ↔ IsLast namedField? (lines text) line := by
  constructor
  · intro ⟨before, after, pieces, hls, hlayout, htext, hafter⟩
    have hlines : lines text = before ++ line :: after := htext ▸ lines_of_laysOut hls hlayout
    obtain ⟨field, hfield⟩ := h line (by simp [hlines])
    refine ⟨before, after, hlines, ?_⟩
    intro l hl heq
    exact hafter l hl field (names_iff.mpr hfield) (names_iff.mpr (heq.trans hfield))
  · intro ⟨before, after, hlines, hafter⟩
    obtain ⟨pieces, hlayout, htext⟩ := exists_laysOut_lines text
    rw [hlines] at hlayout
    refine ⟨before, after, pieces, fun l hl => isLine_of_mem_lines (hlines ▸ hl), hlayout, htext, ?_⟩
    intro l hl field hline hagain
    exact hafter l hl ((names_iff.mp hagain).trans (names_iff.mp hline).symm)

/-- Satisfying a line that compiles means satisfying its comparison. -/
theorem satisfiedBy_iff_of_compileLine (h : compileLine schema line = .ok c) :
    SatisfiedBy schema line product ↔ c.SatisfiedBy product := by
  obtain ⟨t, ht, hc⟩ := compileLine_eq_ok_iff.mp h
  obtain ⟨kind, hkind, hfield, hop, hvalue⟩ := comparison?_eq_ok_iff.mp hc
  obtain ⟨parts, rfl, rfl⟩ := exists_parts_of_tokenizeLine ht
  unfold SatisfiedBy Comparison.SatisfiedBy
  rw [hfield]
  -- parts, kind, operator and value of a line are what the line determines
  constructor
  · intro ⟨parts', kind', op, v, hparts', hkind', hop', hvalue', hholds⟩
    obtain rfl : parts' = parts := LineParts.text_injective hparts'
    obtain rfl : kind' = kind := Option.some.inj (hkind'.symm.trans hkind)
    have hread : typedValue parts'.tokens kind' = .ok v := typedValue_eq_ok_iff.mpr hvalue'
    rw [hvalue] at hread
    cases hread
    rw [Operator.symbol_injective (hop.trans hop'.symm)]
    exact hholds
  · intro hholds
    exact ⟨parts, kind, c.op, c.value, rfl, hkind, hop, typedValue_eq_ok_iff.mp hvalue, hholds⟩

/-- A product meets compiled text when it satisfies every line that counts. -/
theorem matchesProduct_iff_of_compile (h : compile schema text = .ok p) :
    p.matchesProduct product = true ↔
      ∀ line, Survives text line → SatisfiedBy schema line product := by
  obtain ⟨cs, hcs, rfl⟩ := compile_eq_ok_iff.mp h
  have hnamed : ∀ l ∈ lines text, ∃ field, namedField? l = some field := by
    intro l hl
    obtain ⟨c, -, hline⟩ := Outcome.exists_of_mem_left hcs hl
    exact ⟨c.field, namedField?_of_compileLine hline⟩
  simp only [Predicate.matchesProduct_ofComparisons_iff, survives_iff hnamed]
  -- the lines that count are those of the comparisons that are last on their field
  constructor
  · intro hall line hlast
    obtain ⟨c, hc, hline⟩ : ∃ c, IsLast Comparison.field cs c ∧ compileLine schema line = .ok c := by
      refine exists_isLast_of_forall₂ hcs ?_ hlast
      intro l c l' c' hl hl' heq
      rw [namedField?_of_compileLine hl, namedField?_of_compileLine hl', heq]
    exact (satisfiedBy_iff_of_compileLine hline).mpr (hall c hc)
  · intro hall c hlast
    obtain ⟨line, hl, hline⟩ : ∃ line, IsLast namedField? (lines text) line ∧
        compileLine schema line = .ok c := by
      refine exists_isLast_of_forall₂ hcs.flip ?_ hlast
      intro c l c' l' hl hl' heq
      rw [namedField?_of_compileLine hl, namedField?_of_compileLine hl'] at heq
      exact Option.some.inj heq
    exact (satisfiedBy_iff_of_compileLine hline).mp (hall line hl)

/-- Only blank text compiles to no clauses. -/
theorem isEmpty_iff_of_compile (h : compile schema text = .ok p) :
    p.isEmpty = true ↔ Text.AllBlank text.toList := by
  obtain ⟨cs, hcs, rfl⟩ := compile_eq_ok_iff.mp h
  rw [Predicate.isEmpty_ofComparisons_iff, ← lines_eq_nil_iff]
  constructor
  · intro h
    rw [h] at hcs
    exact List.forall₂_nil_right_iff.mp hcs
  · intro h
    rw [h] at hcs
    exact List.forall₂_nil_left_iff.mp hcs

end Rule

/-! ### The status of a result -/

namespace SegmentResult

variable {p : Predicate} {found : List Product}

theorem status_ofFound_eq_unfiltered_iff :
    (ofFound p found).status = .unfiltered ↔ p.isEmpty = true := by
  unfold ofFound
  cases p.isEmpty <;> cases found <;> simp

theorem status_ofFound_of_not_isEmpty (h : ¬ p.isEmpty = true) :
    (ofFound p found).status = if found = [] then .noMatches else .matched := by
  unfold ofFound
  simp only [h]
  cases found <;> rfl

end SegmentResult

/-! ### One comparison -/

namespace Catalog

/-- The products that one comparison selects. -/
def selectOne (catalog : Catalog) (field : String) (op : Operator) (v : Value) : List Product :=
  catalog.select (.ofComparisons [⟨field, op, v⟩])

theorem mem_selectOne_iff {catalog : Catalog} {field : String} {op : Operator} {v : Value}
    {product : Product} : product ∈ catalog.selectOne field op v ↔
      product ∈ catalog.products ∧ op.HoldsAmong (product.Has field) v := by
  show product ∈ catalog.products.filter _ ↔ _
  rw [List.mem_filter, Predicate.matchesProduct_ofComparisons_singleton_iff]
  rfl

end Catalog

/-! ### Evaluation on a catalog -/

namespace Segmenter

/-- Text that compiles to one comparison selects the products of this one. -/
theorem evaluate_of_compile_singleton {s : Segmenter Catalog} {text field : String}
    {op : Operator} {v : Value}
    (h : Rule.compile s.schema text = .ok (.ofComparisons [⟨field, op, v⟩])) :
    ∃ r, (s.evaluate text).value = .ok r ∧ r.products = s.store.selectOne field op v :=
  ⟨_, value_evaluate_of_ok h, rfl⟩

/-- **Selection.** On a catalog, text that compiles selects the products that
    satisfy every line that counts, in catalog order and as often as they occur
    there. Blank text selects the whole catalog, unfiltered; any other text has
    a status that says whether a product was selected. -/
theorem evaluate_selects (s : Segmenter Catalog) (text : String)
    (h : ∃ p, Rule.compile s.schema text = .ok p) :
    ∃ r, (s.evaluate text).value = .ok r ∧
      r.products = s.store.products.filter (fun product => decide
        (∀ line, Rule.Survives text line → Rule.SatisfiedBy s.schema line product)) ∧
      (r.status = .unfiltered ↔ Text.AllBlank text.toList) ∧
      (Text.AllBlank text.toList → r.products = s.store.products) ∧
      (¬ Text.AllBlank text.toList →
        r.status = if r.products = [] then .noMatches else .matched) := by
  obtain ⟨p, hp⟩ := h
  have hvalue : (s.evaluate text).value =
      .ok (SegmentResult.ofFound p (s.store.products.filter p.matchesProduct)) :=
    value_evaluate_of_ok hp
  have hblank := Rule.isEmpty_iff_of_compile hp
  refine ⟨_, hvalue, ?_, ?_, ?_, ?_⟩
  · apply List.filter_congr
    intro product _
    rw [Bool.eq_iff_iff, decide_eq_true_iff]
    exact Rule.matchesProduct_iff_of_compile hp
  · rw [← hblank]
    exact SegmentResult.status_ofFound_eq_unfiltered_iff
  · -- a predicate without clauses keeps every product
    intro htext
    have hentries : p.entries = [] := List.isEmpty_iff.mp (hblank.mpr htext)
    show s.store.products.filter p.matchesProduct = s.store.products
    rw [List.filter_eq_self]
    intro product _
    unfold Predicate.matchesProduct
    rw [hentries]
    rfl
  · intro htext
    exact SegmentResult.status_ofFound_of_not_isEmpty fun hempty => htext (hblank.mp hempty)

/-- Of two lines on the price the second counts, and `!=` holds for a product
    without tags. -/
theorem evaluate_selects_from_sample :
    let s : Segmenter Catalog := ⟨Schema.catalog, Catalog.sample⟩
    let text := "price > 5000\ntags != summer\nprice < 7000"
    (∃ p, Rule.compile s.schema text = .ok p) ∧
      ∃ r, (s.evaluate text).value = .ok r ∧ r.products.map Product.id = [101, 102] ∧
        r.products = s.store.products.filter (fun product => decide
          (∀ line, Rule.Survives text line → Rule.SatisfiedBy s.schema line product)) ∧
        r.status = .matched := by
  intro s text
  have hok : (Rule.compile s.schema text).isOk = true := by decide +kernel
  have hcompiles := Outcome.exists_eq_ok_of_isOk hok
  have hids : ((s.evaluate text).value.map (·.products.map Product.id)).toOption =
      some [101, 102] := by decide +kernel
  obtain ⟨r, hvalue, hproducts, -, -, hstatus⟩ := evaluate_selects s text hcompiles
  rw [hvalue] at hids
  have hselected : r.products.map Product.id = [101, 102] := Option.some.inj hids
  have hne : r.products ≠ [] := by
    intro hnil
    rw [hnil] at hselected
    cases hselected
  refine ⟨hcompiles, r, hvalue, hselected, hproducts, ?_⟩
  rw [hstatus (by decide), if_neg hne]

end Segmenter

end ProductSegments
