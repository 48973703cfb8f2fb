import Mathlib.Data.List.Nodup
import ProductSegments.Keyed.Lemmas
import ProductSegments.Proofs.Catalog.Roundtrip

/-! # The members of a product

  What product is read from members depends on the values of its fields alone,
  where a field that is left out has its default. Everything else about the
  members does not count: their order, members that are no fields, and whether a
  field with its default is left out or not.

  - `valueOf?`: the value of a field.
  - `ofMembers?_congr`: members that give each field the same value.
  - `ofMembers?_of_perm`, `ofMembers?_insert_unknown`, `ofMembers?_insert_default`:
    members in another order, and one member more.
  - `ofMembers?_zip`: the values alone, in order of the fields.
-/

namespace ProductSegments

namespace Product

/-- The fields that can be left out, with the values that they have then. -/
def defaults : List (String × Json) :=
  [("price", .null), ("stock_status", .null), ("stock_quantity", .integer false 0),
   ("category", .null), ("tags", .array []), ("on_sale", .boolean false), ("created_at", .null)]

/-- The value that members give a field, or else the default of the field. -/
def valueOf? (ms : List (String × Json)) (name : String) : Option Json :=
  (ms.lookup name).or (defaults.lookup name)

/-- The keys of members that are fields, in their order. -/
def knownKeys (ms : List (String × Json)) : List String := (ms.map (·.1)).filter (· ∈ fieldNames)

variable {ms ms' before after : List (String × Json)} {name key : String} {v j : Json}
  {p : Product}

/-! ### Values of fields -/

/-- A field that can be left out is read from its value, be it the default. -/
theorem readField_eq_bind {α : Type} {default : α} {read : Json → Option α}
    (hj : defaults.lookup name = some j) (hread : read j = some default) :
    readField ms name default read = (valueOf? ms name).bind read := by
  unfold readField valueOf?
  cases ms.lookup name with
  | none => rw [Option.none_or, hj, Option.bind_some, hread]
  | some v => rfl

/-- Members that give every field the same value are the same product, as long as
    no field stands twice. -/
theorem ofMembers?_congr (hnodup : (knownKeys ms).Nodup ↔ (knownKeys ms').Nodup)
    (hvalue : ∀ name ∈ fieldNames, valueOf? ms name = valueOf? ms' name) :
    ofMembers? ms = ofMembers? ms' := by
  have hrequired : ∀ name ∈ fieldNames, defaults.lookup name = none →
      ms.lookup name = ms'.lookup name := by
    intro name hname hnone
    simpa only [valueOf?, hnone, Option.or_none] using hvalue name hname
  have hoptional : ∀ {α : Type} (name : String) (default : α) (read : Json → Option α) {j : Json},
      name ∈ fieldNames → defaults.lookup name = some j → read j = some default →
        readField ms name default read = readField ms' name default read := by
    intro α name default read j hname hj hread
    rw [readField_eq_bind hj hread, readField_eq_bind hj hread, hvalue name hname]
  apply Option.ext
  intro p
  unfold knownKeys at hnodup
  rw [ofMembers?_eq_some_iff, ofMembers?_eq_some_iff, hnodup,
    hrequired "id" (by decide) rfl, hrequired "title" (by decide) rfl,
    hoptional "price" none (readOptional Json.toDouble?) (by decide) rfl rfl,
    hoptional "stock_status" none (readOptional readText) (by decide) rfl rfl,
    hoptional "stock_quantity" 0 readQuantity (by decide) rfl rfl,
    hoptional "category" none (readOptional readText) (by decide) rfl rfl,
    hoptional "tags" [] readTexts (by decide) rfl rfl,
    hoptional "on_sale" false readBoolean (by decide) rfl rfl,
    hoptional "created_at" none (readOptional readInstant) (by decide) rfl rfl]

/-! ### Other members -/

/-- Where no field stands twice, the key of a field is not that of another member. -/
theorem not_mem_keys_of_nodup (hnodup : (knownKeys (before ++ (key, v) :: after)).Nodup)
    (hkey : key ∈ fieldNames) : key ∉ (before ++ after).map Prod.fst := by
  intro hagain
  have hknown : key ∈ knownKeys (before ++ after) :=
    List.mem_filter.mpr ⟨hagain, by simpa using hkey⟩
  simp only [knownKeys, List.map_append, List.map_cons, List.filter_append, hkey, decide_true,
    List.filter_cons_of_pos] at hnodup hknown
  exact (List.nodup_cons.mp (List.nodup_middle.mp hnodup)).1 hknown

/-- Where no field stands twice, a field has the value of the member with its name. -/
theorem lookup_eq_some_iff_mem (hnodup : (knownKeys ms).Nodup) (hname : name ∈ fieldNames) :
    ms.lookup name = some v ↔ (name, v) ∈ ms := by
  rw [List.lookup_eq_some_iff]
  constructor
  · rintro ⟨front, back, rfl, -⟩
    simp
  · intro hmem
    obtain ⟨front, back, rfl⟩ := List.append_of_mem hmem
    refine ⟨front, back, rfl, fun m hm => ?_⟩
    rw [bne_iff_ne]
    intro heq
    refine not_mem_keys_of_nodup hnodup hname ?_
    rw [heq]
    exact List.mem_map_of_mem (List.mem_append_left _ hm)

/-- The order of the members does not count. -/
theorem ofMembers?_of_perm (h : ms'.Perm ms) (hms : ofMembers? ms = some p) :
    ofMembers? ms' = some p := by
  have hperm : (knownKeys ms').Perm (knownKeys ms) := (h.map Prod.fst).filter _
  have hnodup : (knownKeys ms).Nodup := (ofMembers?_eq_some_iff.mp hms).1
  rw [← hms]
  refine ofMembers?_congr hperm.nodup_iff fun name hname => ?_
  have hlookup : ms'.lookup name = ms.lookup name := by
    apply Option.ext
    intro v
    rw [lookup_eq_some_iff_mem hnodup hname,
      lookup_eq_some_iff_mem (hperm.nodup_iff.mpr hnodup) hname, h.mem_iff]
  rw [valueOf?, valueOf?, hlookup]

/-- A member leaves the look-up of other names as it is. -/
theorem lookup_insert_of_ne (h : name ≠ key) :
    (before ++ (key, v) :: after).lookup name = (before ++ after).lookup name := by
  rw [List.lookup_append, List.lookup_append, Keyed.lookup_cons, if_neg h]

/-- A member that is no field does not count, whatever it holds. -/
theorem ofMembers?_insert_unknown (h : key ∉ fieldNames) (before after : List (String × Json))
    (v : Json) : ofMembers? (before ++ (key, v) :: after) = ofMembers? (before ++ after) := by
  have hkeys : knownKeys (before ++ (key, v) :: after) = knownKeys (before ++ after) := by
    simp [knownKeys, h]
  refine ofMembers?_congr (by rw [hkeys]) fun name hname => ?_
  have hne : name ≠ key := by
    rintro rfl
    exact h hname
  rw [valueOf?, valueOf?, lookup_insert_of_ne hne]

/-- A field that is left out can as well be given its default. -/
theorem ofMembers?_insert_default (h : defaults.lookup key = some v)
    (habsent : key ∉ (before ++ after).map Prod.fst) :
    ofMembers? (before ++ (key, v) :: after) = ofMembers? (before ++ after) := by
  have hnone : ∀ ms : List (String × Json), key ∉ ms.map (·.1) → ms.lookup key = none := by
    intro ms hms
    refine Keyed.lookup_eq_none fun e he heq => hms ?_
    rw [heq]
    exact List.mem_map_of_mem he
  apply ofMembers?_congr
  · -- the key stands once with the member and not at all without it
    have hknown : key ∉ knownKeys (before ++ after) := fun hk => habsent (List.mem_filter.mp hk).1
    simp only [knownKeys, List.map_append, List.map_cons, List.filter_append,
      List.filter_cons] at hknown ⊢
    split
    · rw [List.nodup_middle, List.nodup_cons]
      exact and_iff_right hknown
    · rfl
  · intro name hname
    unfold valueOf?
    by_cases hne : name = key
    · subst hne
      have hbefore : before.lookup name = none := by
        refine hnone before fun hk => habsent ?_
        rw [List.map_append]
        exact List.mem_append_left _ hk
      rw [hnone _ habsent, List.lookup_append, hbefore, Keyed.lookup_cons, if_pos rfl, h]
      rfl
    · rw [lookup_insert_of_ne hne]

/-- A field with its default can as well be left out. -/
theorem ofMembers?_erase_default (h : defaults.lookup key = some v)
    (hms : ofMembers? (before ++ (key, v) :: after) = some p) :
    ofMembers? (before ++ after) = some p := by
  have hkey : key ∈ fieldNames := by
    have hall : ∀ name ∈ defaults.map Prod.fst, name ∈ fieldNames := by decide
    obtain ⟨front, back, heq, -⟩ := List.lookup_eq_some_iff.mp h
    exact hall key (by simp [heq])
  have hnodup : (knownKeys (before ++ (key, v) :: after)).Nodup :=
    (ofMembers?_eq_some_iff.mp hms).1
  rw [← ofMembers?_insert_default h (not_mem_keys_of_nodup hnodup hkey)]
  exact hms

/-! ### Values alone -/

/-- The values of the first names are found under these names. -/
theorem lookup_zip {names : List String} {vs : List Json} {n : Nat} {value? : String → Option Json}
    (hnodup : names.Nodup)
    (hvs : List.Forall₂ (fun name v => value? name = some v) (names.take n) vs) (name : String) :
    (names.zip vs).lookup name = if name ∈ names.take n then value? name else none := by
  induction names generalizing n vs with
  | nil => simp
  | cons first names ih =>
    cases n with
    | zero =>
      cases hvs
      simp
    | succ n =>
      rw [List.take_succ_cons] at hvs ⊢
      obtain ⟨v, vs, hv, hrest, rfl⟩ := List.forall₂_cons_left_iff.mp hvs
      rw [List.zip_cons_cons, Keyed.lookup_cons, ih (List.nodup_cons.mp hnodup).2 hrest]
      by_cases hname : name = first
      · subst hname
        simp [hv]
      · simp [hname]

/-- The values of the first fields are the whole product if all fields behind them
    have their defaults. -/
theorem ofMembers?_zip {vs : List Json} {n : Nat}
    (hvs : List.Forall₂ (fun name v => valueOf? ms name = some v) (fieldNames.take n) vs)
    (hrest : ∀ name ∈ fieldNames.drop n, valueOf? ms name = defaults.lookup name)
    (hms : ofMembers? ms = some p) : ofMembers? (fieldNames.zip vs) = some p := by
  have hfields : fieldNames.Nodup := by decide
  have hnodup : (knownKeys ms).Nodup := (ofMembers?_eq_some_iff.mp hms).1
  have hkeys : ((fieldNames.zip vs).map Prod.fst).Nodup := by
    rw [List.zip_eq_zip_take_min, List.map_fst_zip (by simp)]
    exact hfields.sublist (List.take_sublist _ _)
  rw [← hms]
  refine ofMembers?_congr (iff_of_true (hkeys.filter _) hnodup) fun name hname => ?_
  rw [valueOf?, lookup_zip hfields hvs]
  split
  · next hfirst =>
    obtain ⟨v, -, hv⟩ := Outcome.exists_of_mem_left hvs hfirst
    rw [hv]
    rfl
  · next hnot =>
    have hdrop : name ∈ fieldNames.drop n := by
      rw [← List.take_append_drop n fieldNames] at hname
      exact (List.mem_append.mp hname).resolve_left hnot
    rw [hrest name hdrop]
    rfl

end Product

end ProductSegments
