import ProductSegments.Proofs.Rule.Operators
import ProductSegments.Schema.Declaration

/-! # Schemas that allow more

  What a text compiles to depends on the schema through the fields that the text
  names, and through their kinds only as far as its literals are concerned: a text
  compiles to the same predicate under a schema whose kinds allow more.

  - `FieldKind.Widens` says which kinds read everything that a kind reads as the
    kind does.
  - `compile_of_widens`: a compiled text stays compiled.
-/

namespace ProductSegments

/-- The second kind allows what the first does: it is the same kind, or the first
    is an enumeration and the second one with more values, or free text. -/
inductive FieldKind.Widens : FieldKind → FieldKind → Prop where
  /-- The same kind. -/
  | same (kind : FieldKind) : Widens kind kind
  /-- An enumeration with further values. -/
  | values {allowed allowed' : Words} (h : ∀ s ∈ allowed.toList, s ∈ allowed'.toList) :
      Widens (.enumeration allowed) (.enumeration allowed')
  /-- Any text in place of one of a set. -/
  | free (allowed : Words) : Widens (.enumeration allowed) .string

/-- A wider kind makes the same of a literal. -/
theorem FieldKind.Widens.reads {kind kind' : FieldKind} {literal : String} {v : Value}
    (hwidens : kind.Widens kind') (h : kind.Reads literal v) : kind'.Reads literal v := by
  cases hwidens with
  | same => exact h
  | values hvalues => exact ⟨h.1, hvalues literal h.2⟩
  | free => exact h.1

namespace Rule

variable {schema schema' : Schema} {line : String} {c : Comparison}

/-- A line whose field is declared with a wider kind compiles to the same
    comparison. -/
theorem compileLine_of_widens (h : compileLine schema line = .ok c)
    (hwidens : ∃ kind kind', schema.get? c.field = some kind ∧
      schema'.get? c.field = some kind' ∧ kind.Widens kind') :
    compileLine schema' line = .ok c := by
  obtain ⟨t, ht, hc⟩ := compileLine_eq_ok_iff.mp h
  obtain ⟨kind, hkind, hfield, hop, hvalue⟩ := comparison?_eq_ok_iff.mp hc
  obtain ⟨declared, kind', hdeclared, hkind', hwidens⟩ := hwidens
  rw [hfield] at hdeclared hkind'
  rw [hkind] at hdeclared
  cases hdeclared
  refine compileLine_eq_ok_iff.mpr ⟨t, ht, comparison?_eq_ok_iff.mpr ?_⟩
  refine ⟨kind', hkind', hfield, hop, ?_⟩
  rw [typedValue_eq_ok_iff] at hvalue ⊢
  exact hwidens.reads hvalue

/-- **Widening.** A text that compiles under a schema compiles to the same predicate
    under every schema that declares the fields which the text names with the same
    kind or a wider one, whatever it declares besides. -/
theorem compile_of_widens (schema schema' : Schema) (text : String) (p : Predicate)
    (h : compile schema text = .ok p)
    (hwidens : ∀ field ∈ namedFields text, ∃ kind kind', schema.get? field = some kind ∧
      schema'.get? field = some kind' ∧ kind.Widens kind') :
    compile schema' text = .ok p := by
  obtain ⟨cs, hcs, rfl⟩ := compile_eq_ok_iff.mp h
  have hlines : ∀ line ∈ lines text, ∀ field, namedField? line = some field →
      ∃ kind kind', schema.get? field = some kind ∧ schema'.get? field = some kind' ∧
        kind.Widens kind' := by
    intro line hline field hfield
    exact hwidens field (List.mem_filterMap.mpr ⟨line, hline, hfield⟩)
  refine compile_eq_ok_iff.mpr ⟨cs, ?_, rfl⟩
  refine ((List.forall₂_and_left _ _).mpr ⟨hlines, hcs⟩).imp ?_
  intro line c ⟨hnamed, hline⟩
  exact compileLine_of_widens hline (hnamed c.field (namedField?_of_compileLine hline))

/-- An enumeration gets a value, another one becomes free text, and a field that
    the text does not name changes its kind. -/
theorem compile_of_widens_shop :
    let schema := Schema.ofSpecs
      [⟨"price", .number⟩, ⟨"stock_status", .enumeration (Words.ofList ["instock"])⟩,
       ⟨"tier", .enumeration (Words.ofList ["gold", "silver"])⟩, ⟨"title", .string⟩]
    let schema' := Schema.ofSpecs
      [⟨"price", .number⟩, ⟨"stock_status", .enumeration (Words.ofList ["sold", "instock"])⟩,
       ⟨"tier", .string⟩, ⟨"title", .boolean⟩]
    let text := "price < 7000\nstock_status = instock\ntier != gold"
    (∀ field ∈ namedFields text, ∃ kind kind', schema.get? field = some kind ∧
      schema'.get? field = some kind' ∧ kind.Widens kind') ∧
    ∃ p, compile schema text = .ok p ∧ compile schema' text = .ok p := by
  intro schema schema' text
  have hfields : namedFields text = ["price", "stock_status", "tier"] := by decide +kernel
  have hwidens : ∀ field ∈ namedFields text, ∃ kind kind', schema.get? field = some kind ∧
      schema'.get? field = some kind' ∧ kind.Widens kind' := by
    rw [hfields]
    simp only [List.forall_mem_cons]
    refine ⟨⟨_, _, rfl, rfl, .same _⟩, ⟨_, _, rfl, rfl, .values ?_⟩, ⟨_, _, rfl, rfl, .free _⟩, ?_⟩
    · decide
    · simp
  have hok : (compile schema text).isOk = true := by decide +kernel
  obtain ⟨p, hp⟩ := Outcome.exists_eq_ok_of_isOk hok
  exact ⟨hwidens, p, hp, compile_of_widens schema schema' text p hp hwidens⟩

end Rule

end ProductSegments
