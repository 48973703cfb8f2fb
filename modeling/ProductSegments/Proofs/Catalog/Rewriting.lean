import Mathlib.Logic.Relation
import ProductSegments.Proofs.Product.Members

/-! # Rewriting the objects of a catalog

  A catalog text can give a product in many ways: its members in any order, with
  members besides that are no fields, with or without the fields that have their
  defaults, or as the list of the values alone. `Product.Rewrites` is one such
  change of an object, and a catalog stays the same under any number of them.

  - `Product.ofJson?_of_rewrites`: what one change keeps.
  - `Product.ofJson?_of_reflTransGen`: what any number of changes keeps.
  - `Catalog.ofText_rewritten`: changes all over a text.
-/

namespace ProductSegments

namespace Product

variable {j j' : Json} {p : Product}

/-- An object and another way to give the same product. -/
inductive Rewrites : Json → Json → Prop where
  /-- The members change places. -/
  | reorder {ms ms' : List (String × Json)} (h : ms'.Perm ms) :
    Rewrites (.ofMembers ms) (.ofMembers ms')
  /-- A member that is no field is put in, whatever it holds. -/
  | addUnknown {before after : List (String × Json)} {key : String} {v : Json}
    (h : key ∉ fieldNames) :
    Rewrites (.ofMembers (before ++ after)) (.ofMembers (before ++ (key, v) :: after))
  /-- A member that is no field is taken out. -/
  | eraseUnknown {before after : List (String × Json)} {key : String} {v : Json}
    (h : key ∉ fieldNames) :
    Rewrites (.ofMembers (before ++ (key, v) :: after)) (.ofMembers (before ++ after))
  /-- A field that is left out is put in with its default. -/
  | addDefault {before after : List (String × Json)} {key : String} {v : Json}
    (h : defaults.lookup key = some v) (habsent : key ∉ (before ++ after).map Prod.fst) :
    Rewrites (.ofMembers (before ++ after)) (.ofMembers (before ++ (key, v) :: after))
  /-- A field with its default is taken out. -/
  | eraseDefault {before after : List (String × Json)} {key : String} {v : Json}
    (h : defaults.lookup key = some v) :
    Rewrites (.ofMembers (before ++ (key, v) :: after)) (.ofMembers (before ++ after))
  /-- The values stand alone in order of the fields, those of the first two fields
      at least and of all fields behind which one has not its default. -/
  | positional {ms : List (String × Json)} {vs : List Json} {n : Nat} (hn : 2 ≤ n)
    (hvs : List.Forall₂ (fun name v => valueOf? ms name = some v) (fieldNames.take n) vs)
    (hrest : ∀ name ∈ fieldNames.drop n, valueOf? ms name = defaults.lookup name) :
    Rewrites (.ofMembers ms) (.array vs)

theorem ofJson?_ofMembers (ms : List (String × Json)) :
    ofJson? (.ofMembers ms) = ofMembers? ms := by
  show textKeys? _ >>= ofMembers? = _
  rw [textKeys?_map]
  rfl

/-- The objects that are read as products have texts as keys. -/
theorem exists_ofMembers_of_ofJson? {ms : List (Option String × Json)}
    (h : ofJson? (.object ms) = some p) : ∃ ms', Json.object ms = .ofMembers ms' := by
  obtain ⟨ms', hkeys, -⟩ := Option.bind_eq_some_iff.mp h
  refine ⟨ms', congrArg Json.object ?_⟩
  have hrel := Outcome.mapM_eq_some_iff.mp hkeys
  rw [← List.forall₂_eq_eq_eq, List.forall₂_map_right_iff]
  refine hrel.imp fun m m' hm => ?_
  obtain ⟨key, hkey, rfl⟩ := Option.map_eq_some_iff.mp hm
  exact Prod.ext hkey rfl

/-- **One change** of an object keeps the product that is read. -/
theorem ofJson?_of_rewrites (h : Rewrites j j') (hj : ofJson? j = some p) :
    ofJson? j' = some p := by
  cases h with
  | reorder h =>
    rw [ofJson?_ofMembers] at hj ⊢
    exact ofMembers?_of_perm h hj
  | addUnknown h =>
    rw [ofJson?_ofMembers] at hj ⊢
    rw [ofMembers?_insert_unknown h]
    exact hj
  | eraseUnknown h =>
    rw [ofJson?_ofMembers] at hj ⊢
    rw [ofMembers?_insert_unknown h] at hj
    exact hj
  | addDefault h habsent =>
    rw [ofJson?_ofMembers] at hj ⊢
    rw [ofMembers?_insert_default h habsent]
    exact hj
  | eraseDefault h =>
    rw [ofJson?_ofMembers] at hj ⊢
    exact ofMembers?_erase_default h hj
  | positional hn hvs hrest =>
    rw [ofJson?_ofMembers] at hj
    have hlength := hvs.length_eq
    rw [List.length_take] at hlength
    rw [ofJson?, if_pos (by omega)]
    exact ofMembers?_zip hvs hrest hj

/-- **Any number of changes** keeps the product that is read. -/
theorem ofJson?_of_reflTransGen (h : Relation.ReflTransGen Rewrites j j')
    (hj : ofJson? j = some p) : ofJson? j' = some p := by
  induction h with
  | refl => exact hj
  | tail _ hstep ih => exact ofJson?_of_rewrites hstep ih

/-- Changes of items one by one keep all the products that are read. -/
theorem forall₂_ofJson?_of_rewrites {items items' : List Json} {ps : List Product}
    (h : List.Forall₂ (Relation.ReflTransGen Rewrites) items items')
    (hitems : List.Forall₂ (fun j p => ofJson? j = some p) items ps) :
    List.Forall₂ (fun j p => ofJson? j = some p) items' ps := by
  induction h generalizing ps with
  | nil => exact hitems
  | cons hj _ ih =>
    obtain ⟨p, ps, hp, hrest, rfl⟩ := List.forall₂_cons_left_iff.mp hitems
    exact .cons (ofJson?_of_reflTransGen hj hp) (ih hrest)

end Product

namespace Catalog

/-- The text is JSON text for an array of the items. -/
def Holds (text : String) (items : List Json) : Prop :=
  Json.read? (Text.symbols text) = some (.array items)

/-- **Rewritten catalogs.** A text that reads as a catalog holds items. Whatever
    objects among them are changed, and how often, there is text for the items
    then, and all such text reads as the same catalog. -/
theorem ofText_rewritten {text : String} {c : Catalog} (h : ofText text = .ok c) :
    ∃ items, Holds text items ∧
      (∀ ms, Json.object ms ∈ items → ∃ ms', Json.object ms = .ofMembers ms') ∧
      ∀ items', List.Forall₂ (Relation.ReflTransGen Product.Rewrites) items items' →
        (∃ text', Holds text' items') ∧ ∀ text', Holds text' items' → ofText text' = .ok c := by
  obtain ⟨items, hread, hitems⟩ := ofText_eq_ok_iff.mp h
  refine ⟨items, hread, ?_, ?_⟩
  · intro ms hms
    obtain ⟨p, -, hp⟩ := Outcome.exists_of_mem_left hitems hms
    exact Product.exists_ofMembers_of_ofJson? hp
  · intro items' hrewrites
    refine ⟨⟨(Json.array items').toText, Json.read?_toText _⟩, fun text' hread' => ?_⟩
    have hitems' := Product.forall₂_ofJson?_of_rewrites hrewrites hitems
    exact ofText_eq_ok_iff.mpr ⟨items', hread', hitems'⟩

/-- One product is given the other way round with a member that no field reads, the
    other loses two defaults and then all of its keys. -/
theorem ofText_rewritten_to_values :
    let phone := [("title", Json.text "Phone"), ("id", .integer false 7),
      ("on_sale", .boolean true)]
    let cable := [("id", Json.integer false 8), ("price", .null), ("title", .text "Cable"),
      ("tags", .array [.text "usb"]), ("stock_quantity", .integer false 0)]
    let text := "[\x7b\"title\":\"Phone\",\"id\":7,\"on_sale\":true\x7d," ++
      "\x7b\"id\":8,\"price\":null,\"title\":\"Cable\",\"tags\":[\"usb\"],\"stock_quantity\":0\x7d]"
    let text' := "[\x7b\"id\":7,\"on_sale\":true,\"color\":[\"\\ud800\"],\"title\":" ++
      "\"Phone\"\x7d,[8,\"Cable\",null,null,0,null,[\"usb\"]]]"
    let c : Catalog := ⟨[{ id := 7, title := "Phone", onSale := true },
      { id := 8, title := "Cable", tags := ["usb"] }]⟩
    let items := [Json.ofMembers phone, .ofMembers cable]
    let items' := [Json.ofMembers [("id", .integer false 7), ("on_sale", .boolean true),
        ("color", .array [.string none]), ("title", .text "Phone")],
      .array [.integer false 8, .text "Cable", .null, .null, .integer false 0, .null,
        .array [.text "usb"]]]
    ofText text = .ok c ∧ Holds text items ∧ Holds text' items' ∧
      List.Forall₂ (Relation.ReflTransGen Product.Rewrites) items items' ∧
      ofText text' = .ok c := by
  intro phone cable text text' c items items'
  have htext : text = (Json.array items).toText := by decide +kernel
  have htext' : text' = (Json.array items').toText := by decide +kernel
  have hread : ofText text = .ok c := by decide +kernel
  have hitems : Holds text items := by
    unfold Holds
    rw [htext, Json.read?_toText]
  have hitems' : Holds text' items' := by
    unfold Holds
    rw [htext', Json.read?_toText]
  have hphone : Relation.ReflTransGen Product.Rewrites (.ofMembers phone) items'[0] := by
    have hreorder : Product.Rewrites (.ofMembers phone) (.ofMembers
        [("id", .integer false 7), ("on_sale", .boolean true), ("title", .text "Phone")]) :=
      .reorder (@List.perm_append_comm _ [_, _] [_])
    refine .tail (.single hreorder) ?_
    exact @Product.Rewrites.addUnknown [_, _] [_] "color" _ (by decide)
  have hcable : Relation.ReflTransGen Product.Rewrites (.ofMembers cable) items'[1] := by
    refine .tail (.single (@Product.Rewrites.eraseDefault [_] [_, _, _] "price" .null rfl)) ?_
    refine @Product.Rewrites.positional _ _ 7 (by decide) ?_ ?_
    · exact .cons rfl (.cons rfl (.cons rfl (.cons rfl (.cons rfl (.cons rfl (.cons rfl .nil))))))
    · intro name hname
      simp only [Product.fieldNames, List.drop, List.mem_cons, List.not_mem_nil, or_false] at hname
      rcases hname with rfl | rfl <;> rfl
  have hrewrites : List.Forall₂ (Relation.ReflTransGen Product.Rewrites) items items' :=
    .cons hphone (.cons hcable .nil)
  obtain ⟨items₀, hitems₀, -, hall⟩ := ofText_rewritten hread
  have heq : items₀ = items := by
    unfold Holds at hitems hitems₀
    rw [hitems] at hitems₀
    cases hitems₀
    rfl
  rw [heq] at hall
  exact ⟨hread, hitems, hitems', hrewrites, (hall items' hrewrites).2 text' hitems'⟩

end Catalog

end ProductSegments
