import ProductSegments.Keyed.Basic

/-! # Lemmas about keyed data

  Every operation is characterised through `get?`. Two maps that agree on
  every key are equal.
-/

namespace ProductSegments

namespace Keyed

variable {α : Type} {m m' : Keyed α} {j k : String} {v w : α}

/-! ### Looking up -/

theorem lookup_cons {es : List (String × α)} :
    ((k, v) :: es).lookup j = if j = k then some v else es.lookup j := by
  by_cases h : j = k
  · simp [h]
  · have hb : (j == k) = false := by simpa using h
    simp [List.lookup_cons, hb, h]

theorem lookup_eq_none {es : List (String × α)} (h : ∀ e ∈ es, k ≠ e.1) : es.lookup k = none := by
  induction es with
  | nil => rfl
  | cons a es ih =>
    obtain ⟨j, w⟩ := a
    have hj : k ≠ j := h (j, w) List.mem_cons_self
    rw [lookup_cons, if_neg hj]
    exact ih fun e he => h e (List.mem_cons_of_mem _ he)

/-- In ascending entries every entry is found under its key. -/
theorem lookup_eq_some_iff {es : List (String × α)} (h : es.Pairwise (fun a b => a.1 < b.1)) :
    es.lookup k = some v ↔ (k, v) ∈ es := by
  induction es with
  | nil => simp
  | cons a es ih =>
    obtain ⟨j, w⟩ := a
    obtain ⟨ha, hes⟩ := List.pairwise_cons.1 h
    by_cases hk : k = j
    · subst hk
      have hnot : (k, v) ∉ es := fun he => String.lt_irrefl k (ha _ he)
      simp [hnot, eq_comm]
    · simp [lookup_cons, hk, ih hes]

theorem get?_eq_some_iff : m.get? k = some v ↔ (k, v) ∈ m.entries :=
  lookup_eq_some_iff m.ascending

@[simp] theorem get?_empty : (∅ : Keyed α).get? k = none := rfl

theorem contains_iff : m.contains k = true ↔ k ∈ m.keys := by
  simp only [contains, Option.isSome_iff_exists, get?_eq_some_iff, keys, List.mem_map]
  constructor
  · rintro ⟨v, h⟩; exact ⟨(k, v), h, rfl⟩
  · rintro ⟨⟨_, v⟩, h, rfl⟩; exact ⟨v, h⟩

theorem mem_keys_iff : k ∈ m.keys ↔ ∃ v, m.get? k = some v := by
  rw [← contains_iff, contains, Option.isSome_iff_exists]

/-- A map is empty when it binds no key. -/
theorem isEmpty_iff : m.isEmpty = true ↔ ∀ k, m.get? k = none := by
  obtain ⟨es, h⟩ := m
  cases es with
  | nil => exact ⟨fun _ _ => rfl, fun _ => rfl⟩
  | cons e es =>
    refine ⟨fun hnil => (by cases hnil), fun hnone => ?_⟩
    have hget : (⟨e :: es, h⟩ : Keyed α).get? e.1 = some e.2 :=
      get?_eq_some_iff.mpr List.mem_cons_self
    rw [hnone] at hget
    cases hget

/-- The keys of a map are in strictly ascending order. -/
theorem ascending_keys (m : Keyed α) : m.keys.Pairwise (· < ·) :=
  List.pairwise_map.2 m.ascending

/-- No key of a map comes twice. -/
theorem nodup_keys (m : Keyed α) : m.keys.Nodup := m.ascending_keys.imp String.ne_of_lt

/-! ### Inserting -/

theorem lookup_insertEntry {es : List (String × α)} :
    (insertEntry k v es).lookup j = if j = k then some v else es.lookup j := by
  induction es with
  | nil => simp [insertEntry, lookup_cons]
  | cons a es ih =>
    obtain ⟨i, w⟩ := a
    simp only [insertEntry]
    split
    · rw [lookup_cons]
    · split
      · next heq => subst heq; simp only [lookup_cons]; split <;> rfl
      · next hne =>
        simp only [lookup_cons, ih]
        by_cases hj : j = i
        · subst hj; simp [Ne.symm hne]
        · simp [hj]

/-- A key is bound to what was last inserted for it. -/
theorem get?_insert : (m.insert k v).get? j = if j = k then some v else m.get? j :=
  lookup_insertEntry

@[simp] theorem get?_insert_self : (m.insert k v).get? k = some v := by simp [get?_insert]

theorem get?_insert_of_ne (h : j ≠ k) : (m.insert k v).get? j = m.get? j := by
  simp [get?_insert, h]

theorem mem_keys_insert : j ∈ (m.insert k v).keys ↔ j = k ∨ j ∈ m.keys := by
  rw [← contains_iff, ← contains_iff]
  simp only [contains, get?_insert]
  split <;> simp [*]

/-! ### Equality -/

/-- Ascending entries are determined by what they look up. -/
theorem entries_eq_of_lookup_eq {es es' : List (String × α)}
    (h : es.Pairwise (fun a b => a.1 < b.1)) (h' : es'.Pairwise (fun a b => a.1 < b.1))
    (heq : ∀ k, es.lookup k = es'.lookup k) : es = es' := by
  induction es generalizing es' with
  | nil =>
    cases es' with
    | nil => rfl
    | cons b es' =>
      have hb : (b :: es').lookup b.1 = some b.2 := (lookup_eq_some_iff h').2 List.mem_cons_self
      rw [← heq] at hb
      cases hb
  | cons a es ih =>
    cases es' with
    | nil =>
      have ha : (a :: es).lookup a.1 = some a.2 := (lookup_eq_some_iff h).2 List.mem_cons_self
      rw [heq] at ha
      cases ha
    | cons b es' =>
      obtain ⟨ha, hes⟩ := List.pairwise_cons.1 h
      obtain ⟨hb, hes'⟩ := List.pairwise_cons.1 h'
      have mem_iff : ∀ e : String × α, e ∈ a :: es ↔ e ∈ b :: es' := fun e => by
        rw [← lookup_eq_some_iff h, ← lookup_eq_some_iff h', heq]
      -- the two heads are the least entries of the same set
      have hab : a = b := by
        rcases List.mem_cons.1 ((mem_iff a).1 List.mem_cons_self) with hab | hab
        · exact hab
        rcases List.mem_cons.1 ((mem_iff b).2 List.mem_cons_self) with hba | hba
        · exact hba.symm
        · exact absurd (String.lt_trans (ha b hba) (hb a hab)) (String.lt_irrefl _)
      subst hab
      congr 1
      refine ih hes hes' fun k => ?_
      by_cases hk : k = a.1
      · rw [lookup_eq_none fun e he => ?_, lookup_eq_none fun e he => ?_]
        · exact fun h => String.lt_irrefl a.1 (by have := hb e he; rwa [← h, hk] at this)
        · exact fun h => String.lt_irrefl a.1 (by have := ha e he; rwa [← h, hk] at this)
      · obtain ⟨j, w⟩ := a
        have hk' := heq k
        rw [lookup_cons, lookup_cons, if_neg hk, if_neg hk] at hk'
        exact hk'

/-- Two maps that bind every key alike are equal. -/
theorem ext_get? (h : ∀ k, m.get? k = m'.get? k) : m = m' := by
  have := entries_eq_of_lookup_eq m.ascending m'.ascending h
  cases m; cases m'; simp_all

end Keyed

end ProductSegments
