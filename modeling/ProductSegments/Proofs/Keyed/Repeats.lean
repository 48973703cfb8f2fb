import Mathlib.Data.List.Dedup
import ProductSegments.Proofs.Keyed.LastWins

/-! # Keys that come again

  When the elements of a list are inserted one after the other, an element
  replaces what an earlier one with its key has bound. `repeats` pairs every
  such element with the one that it replaces.

  - `findRev?_eq_some_iff`: the nearest earlier element with a key is the last
    one with it among those in front.
  - `exists_places_repeats`: which elements are repeats, place by place.
  - `forall₂_repeats`: lists that agree on which keys are equal have their
    repeats in the same places.
  - `size_eq_of_mem_keys_iff`: a map that binds the keys of a list has as many
    entries as there are different ones.
  - `size_foldl_insert`: how many entries there are after inserting a list.
-/

namespace ProductSegments

variable {α β κ γ : Type} [DecidableEq κ] [DecidableEq γ]

/-- The elements of a list whose key has come before, in `before` or in the list
    itself, each behind the nearest earlier element with that key. -/
def repeatsAfter (key : α → κ) (before : List α) : List α → List (α × α)
  | [] => []
  | a :: l =>
    ((before.findRev? fun b => key b = key a).map (·, a)).toList ++
      repeatsAfter key (before ++ [a]) l

/-- The elements of a list whose key has come before, each behind the nearest
    earlier element with that key, in the order in which they come. -/
def repeats (key : α → κ) (l : List α) : List (α × α) := repeatsAfter key [] l

variable {key : α → κ} {key' : β → γ} {R : α → β → Prop} {l : List α} {bs : List β}

/-! ### The nearest earlier element -/

omit [DecidableEq γ] in
/-- Seen from the end of a list, the first element with a key is the last one
    that has it. -/
theorem findRev?_eq_some_iff {a : α} {k : κ} :
    l.findRev? (fun b => key b = k) = some a ↔ IsLast key l a ∧ key a = k := by
  rw [List.findRev?_eq_find?_reverse, List.find?_eq_some_iff_append]
  simp only [decide_eq_true_eq, Bool.not_eq_true', decide_eq_false_iff_not]
  constructor
  · intro ⟨hkey, after, before, hl, hafter⟩
    rw [List.reverse_eq_iff] at hl
    refine ⟨⟨before.reverse, after.reverse, by simp [hl], ?_⟩, hkey⟩
    intro b hb
    rw [hkey]
    exact hafter b (List.mem_reverse.mp hb)
  · intro ⟨⟨before, after, hl, hafter⟩, hkey⟩
    refine ⟨hkey, after.reverse, before.reverse, by simp [hl], ?_⟩
    intro b hb
    rw [← hkey]
    exact hafter b (List.mem_reverse.mp hb)

/-- Related lists have related elements that satisfy a condition last. -/
theorem rel_findRev? {p : α → Bool} {q : β → Bool} (h : List.Forall₂ R l bs)
    (hpq : ∀ a b, R a b → p a = q b) : Option.Rel R (l.findRev? p) (bs.findRev? q) := by
  induction h with
  | nil => exact .none
  | @cons a b l bs hab hrest ih =>
    rw [List.findRev?, List.findRev?]
    generalize l.findRev? p = o at ih
    generalize bs.findRev? q = o' at ih
    cases ih with
    | some hcd => exact .some hcd
    | none =>
      simp only [hpq a b hab]
      split
      · exact .some hab
      · exact .none

/-! ### The places of repeats -/

/-- The second element stands at the place, and the first one is the nearest in
    front of it that has its key. -/
structure RepeatsAt (key : α → κ) (l : List α) (i : Nat) (x : α × α) : Prop where
  /-- The second element stands there. -/
  place : l[i]? = some x.2
  /-- The first one is the last of its key in front. -/
  nearest : IsLast key (l.take i) x.1
  /-- They have one key. -/
  same : key x.1 = key x.2

omit [DecidableEq γ] in
/-- A list has a key exactly when the search for it from the end finds an element. -/
theorem mem_map_iff_findRev? {k : κ} :
    k ∈ l.map key ↔ ∃ b, l.findRev? (fun b => key b = k) = some b := by
  simp only [findRev?_eq_some_iff]
  constructor
  · intro h
    obtain ⟨b₀, hb₀, rfl⟩ := List.mem_map.mp h
    exact IsLast.exists_of_mem hb₀
  · rintro ⟨b, hlast, rfl⟩
    exact List.mem_map_of_mem hlast.mem

omit [DecidableEq γ] in
/-- The repeats behind some elements, place by place in the whole list. -/
theorem exists_places_repeatsAfter (key : α → κ) (before l : List α) :
    ∃ places : List Nat, places.Pairwise (· < ·) ∧
      (∀ i, i ∈ places ↔ before.length ≤ i ∧
        ∃ a, (before ++ l)[i]? = some a ∧ key a ∈ ((before ++ l).take i).map key) ∧
      List.Forall₂ (RepeatsAt key (before ++ l)) places (repeatsAfter key before l) := by
  induction l generalizing before with
  | nil =>
    refine ⟨[], .nil, fun i => ?_, .nil⟩
    simp only [List.not_mem_nil, false_iff, not_and]
    rintro hi ⟨a, ha, -⟩
    rw [List.append_nil, List.getElem?_eq_none hi] at ha
    cases ha
  | cons a l ih =>
    obtain ⟨places, hascending, hmem, hrepeats⟩ := ih (before ++ [a])
    rw [List.append_assoc, List.singleton_append] at hmem hrepeats
    rw [List.length_append, List.length_singleton] at hmem
    have hplace : (before ++ a :: l)[before.length]? = some a := by simp
    have htake : (before ++ a :: l).take before.length = before := List.take_left
    have hbehind : ∀ i, before.length ≤ i ↔ i = before.length ∨ before.length + 1 ≤ i := by omega
    rw [repeatsAfter]
    cases hfound : before.findRev? fun b => key b = key a with
    | none =>
      -- no element in front has the key, so this place is left out
      refine ⟨places, hascending, fun i => ?_, hrepeats⟩
      rw [hmem, hbehind]
      refine ⟨fun h => ⟨.inr h.1, h.2⟩, ?_⟩
      rintro ⟨rfl | hi, h⟩
      · obtain ⟨a', ha', hkey⟩ := h
        rw [hplace] at ha'
        cases ha'
        rw [htake] at hkey
        obtain ⟨b, hb⟩ := mem_map_iff_findRev?.mp hkey
        rw [hfound] at hb
        cases hb
      · exact ⟨hi, h⟩
    | some b =>
      obtain ⟨hlast, hkey⟩ := findRev?_eq_some_iff.mp hfound
      refine ⟨before.length :: places, ?_, fun i => ?_, ?_⟩
      · refine List.pairwise_cons.mpr ⟨fun i hi => ?_, hascending⟩
        exact ((hmem i).mp hi).1
      · rw [List.mem_cons, hmem, hbehind]
        constructor
        · rintro (rfl | ⟨hi, h⟩)
          · refine ⟨.inl rfl, a, hplace, ?_⟩
            rw [htake]
            exact mem_map_iff_findRev?.mpr ⟨b, hfound⟩
          · exact ⟨.inr hi, h⟩
        · rintro ⟨rfl | hi, h⟩
          · exact .inl rfl
          · exact .inr ⟨hi, h⟩
      · refine .cons ⟨hplace, ?_, hkey⟩ hrepeats
        rw [htake]
        exact hlast

omit [DecidableEq γ] in
/-- The repeats of a list stand in it where a key has come before, in their order. -/
theorem exists_places_repeats (key : α → κ) (l : List α) :
    ∃ places : List Nat, places.Pairwise (· < ·) ∧
      (∀ i, i ∈ places ↔ ∃ a, l[i]? = some a ∧ key a ∈ (l.take i).map key) ∧
      List.Forall₂ (RepeatsAt key l) places (repeats key l) := by
  simpa only [repeats, List.nil_append, List.length_nil, Nat.zero_le, true_and] using
    exists_places_repeatsAfter key [] l

/-! ### Repeats of related lists -/

theorem forall₂_repeatsAfter (hkey : ∀ a b c d, R a b → R c d → (key c = key a ↔ key' d = key' b))
    (h : List.Forall₂ R l bs) {before : List α} {before' : List β}
    (hbefore : List.Forall₂ R before before') :
    List.Forall₂ (fun x y => R x.1 y.1 ∧ R x.2 y.2) (repeatsAfter key before l)
      (repeatsAfter key' before' bs) := by
  induction h generalizing before before' with
  | nil => exact .nil
  | @cons a b l bs hab hrest ih =>
    have hfound : Option.Rel R (before.findRev? fun c => key c = key a)
        (before'.findRev? fun d => key' d = key' b) :=
      rel_findRev? hbefore fun c d hcd => by simp only [hkey a b c d hab hcd]
    refine List.rel_append ?_ (ih (List.rel_append hbefore (.cons hab .nil)))
    generalize (before.findRev? fun c => key c = key a) = o at hfound
    generalize (before'.findRev? fun d => key' d = key' b) = o' at hfound
    cases hfound with
    | none => exact .nil
    | some hcd => exact .cons ⟨hcd, hab⟩ .nil

/-- Lists that agree on which keys are equal have their repeats in the same
    places. -/
theorem forall₂_repeats (hkey : ∀ a b c d, R a b → R c d → (key c = key a ↔ key' d = key' b))
    (h : List.Forall₂ R l bs) :
    List.Forall₂ (fun x y => R x.1 y.1 ∧ R x.2 y.2) (repeats key l) (repeats key' bs) :=
  forall₂_repeatsAfter hkey h .nil

/-! ### Different keys -/

namespace Keyed

/-- A map that binds the keys of a list has as many entries as there are
    different ones. -/
theorem size_eq_of_mem_keys_iff {m : Keyed α} {ks : List String}
    (h : ∀ k, k ∈ m.keys ↔ k ∈ ks) : m.size = ks.dedup.length := by
  have hperm : m.keys.Perm ks.dedup := by
    rw [List.perm_ext_iff_of_nodup m.nodup_keys ks.nodup_dedup]
    intro k
    rw [h, List.mem_dedup]
  rw [← hperm.length_eq]
  exact (List.length_map _).symm

/-- After inserting a list there are as many entries as different keys, those of
    the map before counted in. -/
theorem size_foldl_insert (key : β → String) (value : β → α) (m : Keyed α) (l : List β) :
    (l.foldl (fun m b => m.insert (key b) (value b)) m).size =
      (m.keys ++ l.map key).dedup.length := by
  apply size_eq_of_mem_keys_iff
  intro k
  rw [mem_keys_foldl_insert, List.mem_append, or_comm]

/-- A map grows by an entry when a key is bound that was not bound before. -/
theorem size_insert (m : Keyed α) (k : String) (v : α) :
    (m.insert k v).size = if k ∈ m.keys then m.size else m.size + 1 := by
  have hlength : m.keys.length = m.size := List.length_map _
  have hkeys : ∀ j, j ∈ (m.insert k v).keys ↔ j ∈ k :: m.keys :=
    fun j => mem_keys_insert.trans List.mem_cons.symm
  rw [size_eq_of_mem_keys_iff hkeys]
  split
  · next hk => rw [List.dedup_cons_of_mem hk, m.nodup_keys.dedup, hlength]
  · next hk => rw [List.dedup_cons_of_notMem hk, m.nodup_keys.dedup, List.length_cons, hlength]

end Keyed

end ProductSegments
