import Mathlib.Data.Option.Basic
import ProductSegments.Catalog.Basic
import ProductSegments.Proofs.Instant.Rfc3339
import ProductSegments.Proofs.Json.Roundtrip
import ProductSegments.Proofs.Outcome

/-! # Catalogs read back

  A catalog that was read from text is written as text that reads as the same
  catalog. The parts that are not about catalogs are shown elsewhere: JSON
  text reads as the tree it was written from, and so does the text of an
  instant. What is left is that every field of a product reads what it writes,
  unset fields included.

  Prices are the exception. They are read in two roundings, so a price need
  not come back from the digits that identify it: `Json.KeepsNumber` says of a
  number that it does.

  - `Product.isFinite_price_of_ofJson?`: all prices that can be read are finite,
    so none of them is written as null.
  - `Product.ofJson?_toJson`: a product is read back.
  - `Catalog.ofText_toJson_toText`: a catalog is read back.
-/

namespace ProductSegments

namespace Product

/-! ### Fields -/

theorem readId_toNat (n : UInt64) : readId (.integer false n.toNat) = some n := by
  rw [readId, if_pos n.toNat_lt, UInt64.ofNat_toNat]

theorem readQuantity_ofInt (n : Int64) : readQuantity (.ofInt n.toInt) = some n := by
  have hlower := n.le_toInt
  have hupper := n.toInt_lt
  have hback := n.ofInt_toInt
  generalize n.toInt = i at hlower hupper hback ⊢
  unfold Json.ofInt
  by_cases hneg : i < 0
  · have habs : -(i.natAbs : Int) = i := by omega
    rw [decide_eq_true hneg, readQuantity, if_pos (by omega), habs, hback]
  · have habs : (i.natAbs : Int) = i := by omega
    rw [decide_eq_false hneg, readQuantity, if_pos (by omega), habs, hback]

theorem readTexts_map (ss : List String) : readTexts (.array (ss.map Json.text)) = some ss :=
  Outcome.mapM_map_eq_some fun _ _ => rfl

theorem readInstant_text (i : Instant) : readInstant (.text (String.ofList i.text)) = some i := by
  rw [readInstant, Json.text, readText, Option.bind_some, String.toList_ofList, Instant.read?_text]

/-- What is read back when it is set is read back when it may be unset, unless it
    is written like an unset one. -/
theorem readOptional_elim {α : Type} (read : Json → Option α) (write : α → Json) {a? : Option α}
    (hnull : read .null = none) (h : ∀ a ∈ a?, read (write a) = some a) :
    readOptional read (a?.elim .null write) = some a? := by
  cases a? with
  | none => rfl
  | some a =>
    have ha := h a rfl
    have hne : write a ≠ .null := by
      intro heq
      rw [heq, hnull] at ha
      cases ha
    show readOptional read (write a) = some (some a)
    rw [readOptional, ha, Option.map_some]
    exact hne

/-! ### Members -/

/-- A product is read from members when no field stands twice among them and
    each field can be read. -/
theorem ofMembers?_eq_some_iff {ms : List (String × Json)} {p : Product} :
    ofMembers? ms = some p ↔
      ((ms.map (·.1)).filter (· ∈ fieldNames)).Nodup ∧
      (ms.lookup "id").bind readId = some p.id ∧
      (ms.lookup "title").bind readText = some p.title ∧
      readField ms "price" none (readOptional Json.toDouble?) = some p.price ∧
      readField ms "stock_status" none (readOptional readText) = some p.stockStatus ∧
      readField ms "stock_quantity" 0 readQuantity = some p.stockQuantity ∧
      readField ms "category" none (readOptional readText) = some p.category ∧
      readField ms "tags" [] readTexts = some p.tags ∧
      readField ms "on_sale" false readBoolean = some p.onSale ∧
      readField ms "created_at" none (readOptional readInstant) = some p.createdAt := by
  obtain ⟨id, title, price, stockStatus, stockQuantity, category, tags, onSale, createdAt⟩ := p
  unfold ofMembers?
  simp only [Option.bind_eq_bind, Option.bind_eq_some_iff, Option.guard_eq_some']
  constructor
  · rintro ⟨_, hnodup, j, hj, _, hid, k, hk, _, htitle, _, hprice, _, hstatus, _, hquantity, _,
      hcategory, _, htags, _, hsale, _, hcreated, hp⟩
    cases hp
    exact ⟨hnodup, ⟨j, hj, hid⟩, ⟨k, hk, htitle⟩, hprice, hstatus, hquantity, hcategory, htags,
      hsale, hcreated⟩
  · rintro ⟨hnodup, ⟨j, hj, hid⟩, ⟨k, hk, htitle⟩, hprice, hstatus, hquantity, hcategory, htags,
      hsale, hcreated⟩
    exact ⟨(), hnodup, j, hj, id, hid, k, hk, title, htitle, price, hprice, _, hstatus, _,
      hquantity, _, hcategory, _, htags, _, hsale, _, hcreated, rfl⟩

theorem exists_ofMembers?_of_ofJson? {j : Json} {p : Product} (h : ofJson? j = some p) :
    ∃ ms, ofMembers? ms = some p := by
  cases j with
  | object ms =>
    obtain ⟨ms', -, hms⟩ := Option.bind_eq_some_iff.mp h
    exact ⟨ms', hms⟩
  | array items =>
    rw [ofJson?] at h
    split at h
    · exact ⟨_, h⟩
    · cases h
  | _ => cases h

/-- Only finite prices are read. -/
theorem isFinite_price_of_ofJson? {j : Json} {p : Product} (h : ofJson? j = some p) {x : Double}
    (hx : p.price = some x) : x.isFinite = true := by
  obtain ⟨ms, hms⟩ := exists_ofMembers?_of_ofJson? h
  obtain ⟨-, -, -, hprice, -⟩ := ofMembers?_eq_some_iff.mp hms
  rw [hx, readField] at hprice
  split at hprice
  · cases hprice
  · next j _ =>
    -- a price that is set was not null
    unfold readOptional at hprice
    split at hprice
    · cases hprice
    · obtain ⟨y, hy, hxy⟩ := Option.map_eq_some_iff.mp hprice
      cases hxy
      exact Json.isFinite_of_toDouble? hy

/-! ### Products -/

theorem textKeys?_map (ms : List (String × Json)) :
    textKeys? (ms.map fun m => (some m.1, m.2)) = some ms :=
  Outcome.mapM_map_eq_some fun _ _ => rfl

/-- A product is read back if its price is. -/
theorem ofJson?_toJson {p : Product}
    (h : ∀ x ∈ p.price, Json.toDouble? (Json.ofDouble x) = some x) :
    ofJson? p.toJson = some p := by
  have hprice := readOptional_elim Json.toDouble? Json.ofDouble rfl h
  have htext : ∀ s? : Option String, readOptional readText (Json.optionalText s?) = some s? :=
    fun s? => readOptional_elim readText Json.text rfl fun _ _ => rfl
  have hinstant : readOptional readInstant
      (Json.optionalText (p.createdAt.map fun i => String.ofList i.text)) = some p.createdAt := by
    have helim := readOptional_elim readInstant (fun i => Json.text (String.ofList i.text)) rfl
      fun i (_ : i ∈ p.createdAt) => readInstant_text i
    cases hi : p.createdAt <;> simpa [Json.optionalText, hi] using helim
  show textKeys? _ >>= ofMembers? = _
  rw [textKeys?_map, Option.bind_eq_bind, Option.bind_some, ofMembers?_eq_some_iff]
  have hnodup : (fieldNames.filter (· ∈ fieldNames)).Nodup := by decide
  exact ⟨hnodup, readId_toNat p.id, rfl, hprice, htext p.stockStatus,
    readQuantity_ofInt p.stockQuantity, htext p.category, readTexts_map p.tags, rfl, hinstant⟩

end Product

namespace Catalog

/-! ### Catalogs -/

/-- A text reads as the products of its items, in their order. -/
theorem ofText_eq_ok_iff {text : String} {c : Catalog} :
    ofText text = .ok c ↔ ∃ items, Json.read? (Text.symbols text) = some (.array items) ∧
      List.Forall₂ (fun j p => Product.ofJson? j = some p) items c.products := by
  constructor
  · intro h
    unfold ofText ofSymbols at h
    split at h
    · cases h
    split at h
    · cases h
    next j hread _ _ hj =>
      cases h
      cases j with
      | array items =>
        obtain ⟨ps, hps, rfl⟩ := Option.map_eq_some_iff.mp hj
        exact ⟨items, hread, Outcome.mapM_eq_some_iff.mp hps⟩
      | _ => cases hj
  · rintro ⟨items, hread, hitems⟩
    have hproducts : ofJson? (.array items) = some c := by
      show (items.mapM Product.ofJson?).map (⟨·⟩) = some c
      rw [Outcome.mapM_eq_some_iff.mpr hitems, Option.map_some]
    unfold ofText ofSymbols
    rw [hread]
    simp only [hproducts]

theorem mem_products_of_ofText {text : String} {c : Catalog} (h : ofText text = .ok c)
    {p : Product} (hp : p ∈ c.products) : ∃ j, Product.ofJson? j = some p := by
  obtain ⟨items, -, hitems⟩ := ofText_eq_ok_iff.mp h
  obtain ⟨item, -, hitem⟩ := Outcome.exists_of_mem_right hitems hp
  exact ⟨item, hitem⟩

theorem ofText_toText {c : Catalog} (h : ∀ p ∈ c.products, Product.ofJson? p.toJson = some p) :
    ofText c.toJson.toText = .ok c := by
  refine ofText_eq_ok_iff.mpr ⟨c.products.map Product.toJson, Json.read?_toText _, ?_⟩
  rw [List.forall₂_map_left_iff, List.forall₂_same]
  exact h

/-- A catalog that was read is written as text that reads as the same products,
    and these are written as the same text again, provided that the numbers
    written for finite prices read as these prices. -/
theorem ofText_toJson_toText {text : String} {c : Catalog} (hread : ofText text = .ok c)
    (hnumbers : ∀ p ∈ c.products, ∀ x ∈ p.price, x.isFinite = true → Json.KeepsNumber x) :
    ∃ c', ofText c.toJson.toText = .ok c' ∧ c'.products = c.products ∧
      c'.toJson.toText = c.toJson.toText := by
  have hproducts : ∀ p ∈ c.products, Product.ofJson? p.toJson = some p := by
    intro p hp
    obtain ⟨j, hj⟩ := mem_products_of_ofText hread hp
    refine Product.ofJson?_toJson fun x hx => ?_
    -- a price that was read has digits to be written
    have hfinite : x.isFinite = true := Product.isFinite_price_of_ofJson? hj hx
    exact (hnumbers p hp x hx hfinite).toDouble?_ofDouble hfinite
  exact ⟨c, ofText_toText hproducts, rfl, rfl⟩

/-- Offsets that move an instant over the ends of the years with four digits,
    with a leap second and a fraction of seven digits. -/
theorem ofText_toJson_toText_of_far_instants :
    let text :=
      "[[18446744073709551615, \"\\u0007 \\\"\\ud83d\\ude00\", 1.1e-7, null, -9223372036854775808," ++
      " null, [\"a\", \"a\"], true, \"9999-12-31t23:30:60.1234567-00:45\"]," ++
      " [2, \"\", -0.0, \"in\", 7, \"c\", [], false, \"0000-01-01 00:15:00+00:30\"]," ++
      " [3, \"unset\"]]"
    let c : Catalog := ⟨[
      { id := 18446744073709551615, title := "\x07 \"😀", price := some (.ofDecimal false ⟨11, -8⟩),
        stockQuantity := -9223372036854775808, tags := ["a", "a"], onSale := true,
        createdAt := some ⟨⟨10000, 1, 1, by decide⟩, ⟨15, by decide⟩, 60, 123456700⟩ },
      { id := 2, title := "", price := some (.zero true), stockStatus := some "in",
        stockQuantity := 7, category := some "c",
        createdAt := some ⟨⟨-1, 12, 31, by decide⟩, ⟨1425, by decide⟩, 0, 0⟩ },
      { id := 3, title := "unset" }]⟩
    ofText text = .ok c ∧
      (∀ p ∈ c.products, ∀ x ∈ p.price, x.isFinite = true → Json.KeepsNumber x) ∧
      ∃ c', ofText c.toJson.toText = .ok c' ∧ c'.products = c.products ∧
        c'.toJson.toText = c.toJson.toText := by
  intro text c
  have hread : ofText text = .ok c := by decide +kernel
  have hnumbers : ∀ p ∈ c.products, ∀ x ∈ p.price, x.isFinite = true → Json.KeepsNumber x := by
    decide +kernel
  exact ⟨hread, hnumbers, ofText_toJson_toText hread hnumbers⟩

end Catalog

end ProductSegments
