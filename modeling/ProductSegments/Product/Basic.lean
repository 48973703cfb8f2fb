import ProductSegments.Instant.Basic
import ProductSegments.Value

/-! # Products

  A product of the catalog and the values of its attributes. Rules name
  attributes by the names that catalogs use for them; the time of creation is
  carried along and is no attribute.

  - `Product.attributeAt` looks an attribute up by its name.
  - `Product.Has` are the values that a product has under a name, said of the
    record itself.
  - `Product.mem_values_attributeAt_iff`: these are the values that are looked up.
-/

namespace ProductSegments

/-- A product of the catalog. -/
structure Product where
  /-- The identifier. -/
  id : UInt64
  /-- The title. -/
  title : String
  /-- The price, if one is set. -/
  price : Option Double := none
  /-- The stock status, if one is set. -/
  stockStatus : Option String := none
  /-- The number of items in stock. -/
  stockQuantity : Int64 := 0
  /-- The category, if one is set. -/
  category : Option String := none
  /-- The tags. -/
  tags : List String := []
  /-- Whether the product is on sale. -/
  onSale : Bool := false
  /-- When the product was created, if known. -/
  createdAt : Option Instant := none
deriving DecidableEq

/-- What a product holds under an attribute name. -/
inductive Attribute where
  /-- The attribute is unset, or there is none of that name. -/
  | missing
  /-- A single value. -/
  | one (v : Value)
  /-- A list of strings. -/
  | many (ss : List String)
deriving DecidableEq

namespace Attribute

/-- An attribute that may be unset. -/
def ofOption : Option Value → Attribute
  | none => .missing
  | some v => .one v

/-- The values of an attribute: none, one, or the strings of a list. -/
def values : Attribute → List Value
  | .missing => []
  | .one v => [v]
  | .many ss => ss.map .string

end Attribute

/-- The attribute of the given name. -/
def Product.attributeAt (p : Product) (field : String) : Attribute :=
  match field with
  | "id" => .one (.ofInt p.id.toNat)
  | "title" => .one (.string p.title)
  | "price" => .ofOption (p.price.map .number)
  | "stock_status" => .ofOption (p.stockStatus.map .string)
  | "stock_quantity" => .one (.ofInt p.stockQuantity.toInt)
  | "category" => .ofOption (p.category.map .string)
  | "tags" => .many p.tags
  | "on_sale" => .one (.boolean p.onSale)
  | _ => .missing

/-! ### Values of the record -/

/-- The product has the value under the name. An attribute that is not set has no
    value, nor has a name that is none of these; the tags are a value each. -/
inductive Product.Has (p : Product) : String → Value → Prop where
  /-- The identifier, as the number nearest to it. -/
  | id : Has p "id" (.number (.ofInt p.id.toNat))
  /-- The title. -/
  | title : Has p "title" (.string p.title)
  /-- A price that is set. -/
  | price {x : Double} (h : p.price = some x) : Has p "price" (.number x)
  /-- A stock status that is set. -/
  | stockStatus {s : String} (h : p.stockStatus = some s) : Has p "stock_status" (.string s)
  /-- The number of items, as the number nearest to it. -/
  | stockQuantity : Has p "stock_quantity" (.number (.ofInt p.stockQuantity.toInt))
  /-- A category that is set. -/
  | category {s : String} (h : p.category = some s) : Has p "category" (.string s)
  /-- One of the tags. -/
  | tag {s : String} (h : s ∈ p.tags) : Has p "tags" (.string s)
  /-- Whether the product is on sale. -/
  | onSale : Has p "on_sale" (.boolean p.onSale)

theorem Attribute.mem_values_ofOption_iff {α : Type} {o : Option α} {f : α → Value} {w : Value} :
    w ∈ (ofOption (o.map f)).values ↔ ∃ x, o = some x ∧ f x = w := by
  cases o with
  | none => simp [ofOption, values]
  | some x => simp [ofOption, values, eq_comm]

/-- The values of the attribute that is looked up are those of the record. -/
theorem Product.mem_values_attributeAt_iff {p : Product} {name : String} {w : Value} :
    w ∈ (p.attributeAt name).values ↔ p.Has name w := by
  constructor
  · intro h
    unfold attributeAt at h
    split at h
    · rw [List.mem_singleton.mp h]
      exact .id
    · rw [List.mem_singleton.mp h]
      exact .title
    · obtain ⟨x, hx, rfl⟩ := Attribute.mem_values_ofOption_iff.mp h
      exact .price hx
    · obtain ⟨s, hs, rfl⟩ := Attribute.mem_values_ofOption_iff.mp h
      exact .stockStatus hs
    · rw [List.mem_singleton.mp h]
      exact .stockQuantity
    · obtain ⟨s, hs, rfl⟩ := Attribute.mem_values_ofOption_iff.mp h
      exact .category hs
    · obtain ⟨s, hs, rfl⟩ := List.mem_map.mp h
      exact .tag hs
    · rw [List.mem_singleton.mp h]
      exact .onSale
    · cases h
  · intro h
    cases h with
    | id => exact List.mem_singleton_self _
    | title => exact List.mem_singleton_self _
    | price h => exact Attribute.mem_values_ofOption_iff.mpr ⟨_, h, rfl⟩
    | stockStatus h => exact Attribute.mem_values_ofOption_iff.mpr ⟨_, h, rfl⟩
    | stockQuantity => exact List.mem_singleton_self _
    | category h => exact Attribute.mem_values_ofOption_iff.mpr ⟨_, h, rfl⟩
    | tag h => exact List.mem_map_of_mem h
    | onSale => exact List.mem_singleton_self _

/-- Only the tags are more than one value. -/
theorem Product.attributeAt_cases {name : String} (h : name ≠ "tags") (p : Product) :
    p.attributeAt name = .missing ∨ ∃ w, p.attributeAt name = .one w := by
  have hoption (o : Option Value) :
      Attribute.ofOption o = .missing ∨ ∃ w, Attribute.ofOption o = .one w := by
    cases o with
    | none => exact .inl rfl
    | some w => exact .inr ⟨w, rfl⟩
  unfold attributeAt
  split
  · exact .inr ⟨_, rfl⟩
  · exact .inr ⟨_, rfl⟩
  · exact hoption _
  · exact hoption _
  · exact .inr ⟨_, rfl⟩
  · exact hoption _
  · exact absurd rfl h
  · exact .inr ⟨_, rfl⟩
  · exact .inl rfl

theorem Product.Has.eq_of_ne_tags {p : Product} {name : String} {v w : Value}
    (hname : name ≠ "tags") (hv : p.Has name v) (hw : p.Has name w) : v = w := by
  rw [← mem_values_attributeAt_iff] at hv hw
  rcases attributeAt_cases hname p with hnone | ⟨u, hone⟩
  · rw [hnone] at hv
    cases hv
  · rw [hone] at hv hw
    exact (List.mem_singleton.mp hv).trans (List.mem_singleton.mp hw).symm

end ProductSegments
