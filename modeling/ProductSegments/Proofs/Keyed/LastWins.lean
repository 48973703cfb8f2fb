import ProductSegments.Keyed.Lemmas
import ProductSegments.Proofs.Outcome

/-! # The last entry of a key wins

  Predicates and schemas are made by inserting the elements of a list one
  after the other, so a key is bound to the value of the last element with that
  key. `IsLast` says which elements these are without mentioning the map:

  - `get?_foldl_insert_eq_some_iff`: what a key is bound to after inserting a
    whole list.
  - `get?_foldl_insert`: what a list binds lies over what was bound before.
  - `foldl_insert_eq_of_perm`: elements with different keys are inserted in any
    order.
  - `exists_isLast_of_forall₂`: lists that agree on which keys are equal have
    their last elements in the same places.
-/

namespace ProductSegments

variable {α β κ : Type}

/-- The element is the last one of the list with its key. -/
def IsLast (key : α → κ) (l : List α) (a : α) : Prop :=
  ∃ before after, l = before ++ a :: after ∧ ∀ b ∈ after, key b ≠ key a

namespace IsLast

variable {key : α → κ} {l : List α} {a b : α}

theorem mem (h : IsLast key l a) : a ∈ l := by
  obtain ⟨before, after, rfl, -⟩ := h
  simp

theorem cons (h : IsLast key l a) : IsLast key (b :: l) a := by
  obtain ⟨before, after, rfl, hafter⟩ := h
  exact ⟨b :: before, after, rfl, hafter⟩

/-- The first element of a list is the last with its key when the key does not
    come again. -/
theorem head (h : ∀ b ∈ l, key b ≠ key a) : IsLast key (a :: l) a := ⟨[], l, rfl, h⟩

/-- Where no key comes twice, every element is the last with its key. -/
theorem of_nodup (h : (l.map key).Nodup) (ha : a ∈ l) : IsLast key l a := by
  obtain ⟨before, after, rfl⟩ := List.append_of_mem ha
  refine ⟨before, after, rfl, ?_⟩
  intro b hb hkey
  rw [List.map_append, List.map_cons, List.nodup_append] at h
  have hnot : key a ∉ after.map key := (List.nodup_cons.mp h.2.1).1
  exact hnot (hkey ▸ List.mem_map_of_mem hb)

/-- Where no key comes twice, the last elements with their keys are all elements. -/
theorem iff_mem_of_nodup (h : (l.map key).Nodup) : IsLast key l a ↔ a ∈ l :=
  ⟨mem, of_nodup h⟩

/-- Every key of a list has a last element. -/
theorem exists_of_mem {l : List α} (h : a ∈ l) : ∃ b, IsLast key l b ∧ key b = key a := by
  induction l generalizing a with
  | nil => cases h
  | cons c l ih =>
    by_cases hagain : ∃ b ∈ l, key b = key a
    · -- the key comes again behind the first element
      obtain ⟨b, hb, hkey⟩ := hagain
      obtain ⟨b', hlast, hkey'⟩ := ih hb
      exact ⟨b', hlast.cons, hkey'.trans hkey⟩
    · have hnot : ∀ b ∈ l, key b ≠ key a := fun b hb hkey => hagain ⟨b, hb, hkey⟩
      rcases List.mem_cons.mp h with rfl | ha
      · exact ⟨a, head hnot, rfl⟩
      · exact absurd rfl (hnot a ha)

end IsLast

/-- Lists whose elements agree on which keys are equal have their last elements
    in the same places. -/
theorem exists_isLast_of_forall₂ {γ : Type} {key : α → κ} {key' : β → γ} {R : α → β → Prop}
    {l : List α} {bs : List β} {a : α} (h : List.Forall₂ R l bs)
    (hkey : ∀ a b c d, R a b → R c d → key' d = key' b → key c = key a)
    (hlast : IsLast key l a) : ∃ b, IsLast key' bs b ∧ R a b := by
  obtain ⟨before, after, rfl, hafter⟩ := hlast
  -- the partner of the element is the one that stands behind as many others
  obtain ⟨bs₁, b, bs₂, rfl, -, hab, hrest⟩ := Outcome.forall₂_append_cons h
  refine ⟨b, ⟨bs₁, bs₂, rfl, ?_⟩, hab⟩
  intro d hd heq
  obtain ⟨c, hc, hcd⟩ := Outcome.exists_of_mem_right hrest hd
  exact hafter c hc (hkey a b c d hab hcd heq)

namespace Keyed

variable {key : β → String} {value : β → α} {m : Keyed α} {l : List β} {k : String} {v : α}

/-- Inserting elements with other keys leaves a key bound as it is. -/
theorem get?_foldl_insert_of_ne (h : ∀ b ∈ l, key b ≠ k) :
    (l.foldl (fun m b => m.insert (key b) (value b)) m).get? k = m.get? k := by
  induction l generalizing m with
  | nil => rfl
  | cons b l ih =>
    have hb : k ≠ key b := (h b List.mem_cons_self).symm
    rw [List.foldl_cons, ih fun c hc => h c (List.mem_cons_of_mem b hc), get?_insert_of_ne hb]

/-- The last element with a key decides what the key is bound to. -/
theorem get?_foldl_insert_of_isLast {b : β} (h : IsLast key l b) :
    (l.foldl (fun m b => m.insert (key b) (value b)) m).get? (key b) = some (value b) := by
  obtain ⟨before, after, rfl, hafter⟩ := h
  rw [List.foldl_append, List.foldl_cons, get?_foldl_insert_of_ne hafter, get?_insert_self]

/-- What a list binds lies over what was bound before. -/
theorem get?_foldl_insert (m : Keyed α) (l : List β) (k : String) :
    (l.foldl (fun m b => m.insert (key b) (value b)) m).get? k =
      ((l.foldl (fun m b => m.insert (key b) (value b)) (∅ : Keyed α)).get? k).or (m.get? k) := by
  by_cases hk : ∃ b ∈ l, key b = k
  · -- the last element with the key decides, whatever map the insertions start from
    obtain ⟨b₀, hb₀, rfl⟩ := hk
    obtain ⟨b, hlast, hkey⟩ : ∃ b, IsLast key l b ∧ key b = key b₀ := IsLast.exists_of_mem hb₀
    rw [← hkey, get?_foldl_insert_of_isLast hlast, get?_foldl_insert_of_isLast hlast]
    rfl
  · have hnone : ∀ b ∈ l, key b ≠ k := fun b hb hkey => hk ⟨b, hb, hkey⟩
    rw [get?_foldl_insert_of_ne hnone, get?_foldl_insert_of_ne hnone, get?_empty]
    rfl

/-- After inserting a list, a key is bound to the value of its last element
    there, or as before when the list has no element with that key. -/
theorem get?_foldl_insert_eq_some_iff :
    (l.foldl (fun m b => m.insert (key b) (value b)) m).get? k = some v ↔
      (∃ b, IsLast key l b ∧ key b = k ∧ value b = v) ∨
        ((∀ b ∈ l, key b ≠ k) ∧ m.get? k = some v) := by
  by_cases hk : ∃ b ∈ l, key b = k
  · -- the list has the key, so its last element decides and `m` does not count
    obtain ⟨b₀, hb₀, rfl⟩ := hk
    constructor
    · intro h
      have hexists : ∃ b, IsLast key l b ∧ key b = key b₀ := IsLast.exists_of_mem hb₀
      obtain ⟨b, hlast, hkey⟩ := hexists
      rw [← hkey, get?_foldl_insert_of_isLast hlast] at h
      exact .inl ⟨b, hlast, hkey, Option.some.inj h⟩
    · intro h
      rcases h with ⟨b, hlast, hkey, rfl⟩ | ⟨hnone, -⟩
      · rw [← hkey]
        exact get?_foldl_insert_of_isLast hlast
      · exact absurd rfl (hnone b₀ hb₀)
  · -- no element has the key, so it is bound as in `m`
    have hnone : ∀ b ∈ l, key b ≠ k := fun b hb hkey => hk ⟨b, hb, hkey⟩
    rw [get?_foldl_insert_of_ne hnone]
    constructor
    · intro h
      exact .inr ⟨hnone, h⟩
    · intro h
      rcases h with ⟨b, hlast, hkey, -⟩ | ⟨-, h⟩
      · exact absurd hkey (hnone b hlast.mem)
      · exact h

/-- A map that is made of a list binds a key to the value of its last element. -/
theorem get?_foldl_insert_empty_eq_some_iff :
    (l.foldl (fun m b => m.insert (key b) (value b)) (∅ : Keyed α)).get? k = some v ↔
      ∃ b, IsLast key l b ∧ key b = k ∧ value b = v := by
  rw [get?_foldl_insert_eq_some_iff]
  refine ⟨fun h => ?_, .inl⟩
  rcases h with h | ⟨-, hempty⟩
  · exact h
  · -- there was nothing bound before
    rw [get?_empty] at hempty
    cases hempty

/-- Inserting a list binds its keys and no others. -/
theorem mem_keys_foldl_insert :
    k ∈ (l.foldl (fun m b => m.insert (key b) (value b)) m).keys ↔ k ∈ l.map key ∨ k ∈ m.keys := by
  induction l generalizing m with
  | nil => simp
  | cons b l ih =>
    rw [List.foldl_cons, ih, mem_keys_insert, List.map_cons, List.mem_cons, or_left_comm, or_assoc]

/-- Elements with different keys make the same map in any order. -/
theorem foldl_insert_eq_of_perm {l' : List β} (h : (l.map key).Nodup) (hperm : l'.Perm l) :
    l'.foldl (fun m b => m.insert (key b) (value b)) m =
      l.foldl (fun m b => m.insert (key b) (value b)) m := by
  have h' : (l'.map key).Nodup := (hperm.map key).nodup_iff.mpr h
  apply ext_get?
  intro k
  apply Option.ext
  intro v
  simp only [get?_foldl_insert_eq_some_iff, IsLast.iff_mem_of_nodup h,
    IsLast.iff_mem_of_nodup h', hperm.mem_iff]

/-- A map is made of its entries. -/
theorem ofList_entries (m : Keyed α) : ofList m.entries = m := by
  have hnodup : (m.entries.map Prod.fst).Nodup := m.nodup_keys
  apply ext_get?
  intro k
  apply Option.ext
  intro v
  have hfold : (ofList m.entries).get? k = some v ↔
      ∃ e, IsLast Prod.fst m.entries e ∧ e.1 = k ∧ e.2 = v :=
    get?_foldl_insert_empty_eq_some_iff
  simp [hfold, IsLast.iff_mem_of_nodup hnodup, get?_eq_some_iff]

end Keyed

end ProductSegments
