import ProductSegments.Proofs.Rule.Writing
import ProductSegments.Schema.Declaration

/-! # The kinds of product attributes

  The catalog schema and the products each have their own list of names. They
  agree: under every declared field a product has values of the kind that the
  field's literals have, and it has some unless the field may be unset.

  - `FieldKind.valueKind` is the kind of the values that literals of a field have.
  - `Schema.kind_eq_of_has`: the values of products are of this kind.
  - `Rule.kind_value_of_compile`: the values of compiled clauses are, too.
  - `Rule.attributeAt_of_compile_catalog`: a compiled clause meets values that it can
    be compared with, NaN apart.
-/

namespace ProductSegments

/-! ### Kinds of fields -/

/-- The kind of the values that the literals of a field have. -/
def FieldKind.valueKind : FieldKind → ValueKind
  | .number => .number
  | .boolean => .boolean
  | .string => .string
  | .enumeration _ => .string

theorem FieldKind.Takes.kind_eq {kind : FieldKind} {v : Value} (h : kind.Takes v) :
    v.kind = kind.valueKind := by
  rcases h.cases with ⟨rfl, _, _, rfl⟩ | ⟨rfl, _, rfl⟩ | ⟨rfl, _, rfl, _⟩ | ⟨_, rfl, _, rfl, _⟩ <;>
    rfl

/-- No field takes NaN. -/
theorem FieldKind.Takes.ne_nan {kind : FieldKind} {v : Value} (h : kind.Takes v) :
    v ≠ .number .nan := by
  intro hnan
  rw [hnan] at h
  cases kind <;> cases h

/-! ### Attributes of products -/

/-- The product has nothing set under a field that it may leave unset. -/
def Product.Unset (product : Product) (field : String) : Prop :=
  (field = "price" ∧ product.price = none) ∨
    (field = "stock_status" ∧ product.stockStatus = none) ∨
    (field = "category" ∧ product.category = none)

theorem Attribute.ofOption_eq_missing_iff {o : Option Value} :
    ofOption o = .missing ↔ o = none := by
  cases o <;> simp [ofOption]

/-- An integer is a number that is not NaN. -/
theorem Double.ofInt_ne_nan (i : Int) : Double.ofInt i ≠ .nan := by
  unfold Double.ofInt Double.ofRatio
  split <;> simp

namespace Schema

variable {field : String} {kind : FieldKind} {product : Product} {w : Value}

/-- The fields of the catalog schema with their kinds. -/
theorem specs_catalog : catalog.specs =
    [⟨"category", .string⟩, ⟨"on_sale", .boolean⟩, ⟨"price", .number⟩, ⟨"stock_quantity", .number⟩,
     ⟨"stock_status", .enumeration (Words.ofList ["instock", "outofstock", "onbackorder"])⟩,
     ⟨"tags", .string⟩, ⟨"title", .string⟩] := by
  decide +kernel

/-- A declared field is one of the seven, each with its kind of values. -/
theorem cases_of_get?_catalog (h : catalog.get? field = some kind) :
    (field = "category" ∧ kind.valueKind = .string) ∨
      (field = "on_sale" ∧ kind.valueKind = .boolean) ∨
      (field = "price" ∧ kind.valueKind = .number) ∨
      (field = "stock_quantity" ∧ kind.valueKind = .number) ∨
      (field = "stock_status" ∧ kind.valueKind = .string) ∨
      (field = "tags" ∧ kind.valueKind = .string) ∨
      (field = "title" ∧ kind.valueKind = .string) := by
  have hmem : ⟨field, kind⟩ ∈ catalog.specs := mem_specs_iff.mpr (get?_eq_some_iff.mp h)
  rw [specs_catalog] at hmem
  simp only [List.mem_cons, FieldSpec.mk.injEq, List.not_mem_nil, or_false] at hmem
  rcases hmem with ⟨rfl, rfl⟩ | ⟨rfl, rfl⟩ | ⟨rfl, rfl⟩ | ⟨rfl, rfl⟩ | ⟨rfl, rfl⟩ | ⟨rfl, rfl⟩ |
    ⟨rfl, rfl⟩ <;> simp [FieldKind.valueKind]

/-- Under a declared field a product has an attribute, unless it may leave the
    field unset and does. -/
theorem attributeAt_eq_missing_iff (h : catalog.get? field = some kind) :
    product.attributeAt field = .missing ↔ product.Unset field := by
  rcases cases_of_get?_catalog h with ⟨rfl, -⟩ | ⟨rfl, -⟩ | ⟨rfl, -⟩ | ⟨rfl, -⟩ | ⟨rfl, -⟩ |
    ⟨rfl, -⟩ | ⟨rfl, -⟩ <;>
    simp [Product.attributeAt, Product.Unset, Attribute.ofOption_eq_missing_iff]

/-- The values that a product has under a declared field are of the kind that
    the literals of the field have. -/
theorem kind_eq_of_has (h : catalog.get? field = some kind) (hw : product.Has field w) :
    w.kind = kind.valueKind := by
  have hcases := cases_of_get?_catalog h
  symm
  cases hw with
  | id => simp at hcases
  | title => simpa [Value.kind] using hcases
  | price _ => simpa [Value.kind] using hcases
  | stockStatus _ => simpa [Value.kind] using hcases
  | stockQuantity => simpa [Value.kind] using hcases
  | category _ => simpa [Value.kind] using hcases
  | tag _ => simpa [Value.kind] using hcases
  | onSale => simpa [Value.kind] using hcases

/-- Among the values of a product only the price can be NaN. -/
theorem eq_nan_iff_of_has (hw : product.Has field w) :
    w = .number .nan ↔ field = "price" ∧ product.price = some .nan := by
  cases hw with
  | id => simp [Double.ofInt_ne_nan]
  | title => simp
  | price hx => simp [hx]
  | stockStatus _ => simp
  | stockQuantity => simp [Double.ofInt_ne_nan]
  | category _ => simp
  | tag _ => simp
  | onSale => simp

end Schema

/-! ### Compiled clauses -/

namespace Rule

variable {schema : Schema} {text : String} {p : Predicate}

/-- The value of a compiled clause is of the kind that the literals of its field
    have, and is not NaN. -/
theorem kind_value_of_compile (h : compile schema text = .ok p) :
    ∀ e ∈ p.entries, ∃ kind, schema.get? e.1 = some kind ∧ e.2.value.kind = kind.valueKind ∧
      e.2.value ≠ .number .nan := by
  intro e he
  obtain ⟨kind, hkind, htakes⟩ := (writable_of_compile h e he).takes
  exact ⟨kind, hkind, htakes.kind_eq, htakes.ne_nan⟩

/-- **Agreement of schema and products.** Under the field of a clause that
    compiles for the catalog, a product misses an attribute exactly when it
    leaves the price, the stock status or the category unset. The values that it
    has are of the kind of the clause's value, and such a value cannot be
    compared with it exactly when it is a price that is NaN. -/
theorem attributeAt_of_compile_catalog (text : String) (p : Predicate)
    (h : compile Schema.catalog text = .ok p) :
    ∀ e ∈ p.entries, ∀ product : Product,
      (product.attributeAt e.1 = .missing ↔ product.Unset e.1) ∧
      (∀ w ∈ (product.attributeAt e.1).values, w.kind = e.2.value.kind) ∧
      (∀ w ∈ (product.attributeAt e.1).values,
        w.compare? e.2.value = none ↔ e.1 = "price" ∧ product.price = some .nan) := by
  intro e he product
  obtain ⟨kind, hdeclared, hkind, hnan⟩ := kind_value_of_compile h e he
  have hkinds : ∀ w ∈ (product.attributeAt e.1).values, w.kind = e.2.value.kind := by
    intro w hw
    rw [hkind]
    exact Schema.kind_eq_of_has hdeclared (Product.mem_values_attributeAt_iff.mp hw)
  refine ⟨Schema.attributeAt_eq_missing_iff hdeclared, hkinds, ?_⟩
  intro w hw
  rw [Value.compare?_eq_none_iff (hkinds w hw), or_iff_left hnan]
  exact Schema.eq_nan_iff_of_has (Product.mem_values_attributeAt_iff.mp hw)

/-- A price that is NaN is a number, and it cannot be compared with one. -/
theorem attributeAt_of_compile_nan_price :
    let product : Product := { id := 1, title := "Tent", price := some .nan, tags := ["sale"] }
    ∃ p, compile Schema.catalog "price > 5000\ntags != sale" = .ok p ∧
      ∃ e ∈ p.entries, e.1 = "price" ∧ product.attributeAt e.1 ≠ .missing ∧
        ∃ w ∈ (product.attributeAt e.1).values, w.kind = e.2.value.kind ∧
          w.compare? e.2.value = none := by
  intro product
  have hkeys : ((compile Schema.catalog "price > 5000\ntags != sale").map Keyed.keys).toOption =
      some ["price", "tags"] := by decide +kernel
  cases hp : compile Schema.catalog "price > 5000\ntags != sale" with
  | error e => rw [hp] at hkeys; cases hkeys
  | ok p =>
    rw [hp] at hkeys
    have hprice : "price" ∈ p.keys := by
      rw [show p.keys = ["price", "tags"] from Option.some.inj hkeys]
      exact List.mem_cons_self
    obtain ⟨e, he, hfield⟩ := List.mem_map.mp hprice
    obtain ⟨hmissing, hkinds, hcompare⟩ := attributeAt_of_compile_catalog _ p hp e he product
    have hw : .number .nan ∈ (product.attributeAt e.1).values := by
      rw [hfield]
      exact List.mem_cons_self
    refine ⟨p, rfl, e, he, hfield, ?_, .number .nan, hw, hkinds _ hw, ?_⟩
    · rw [Ne, hmissing]
      simp [Product.Unset, hfield, product]
    · exact (hcompare _ hw).mpr ⟨hfield, rfl⟩

end Rule

end ProductSegments
