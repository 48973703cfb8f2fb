import Mathlib.Data.List.Forall2

/-! # Outcomes

  What it means for an operation that may fail to succeed or to fail, said in
  terms of its parts. Several readers go through a list and stop at the first
  element that fails; the two outcomes of such a pass are:

  - `mapM_eq_ok_iff`: it succeeds when every element does, one result each.
  - `mapM_eq_error_iff`: it fails with the error of an element that fails and
    has only successes in front of it. What stands behind is not looked at.
-/

namespace ProductSegments

namespace Outcome

variable {α β ε ε' : Type} {f : α → Except ε β} {l : List α}

/-! ### Steps -/

theorem bind_eq_ok_iff {x : Except ε α} {b : β} :
    x >>= f = .ok b ↔ ∃ a, x = .ok a ∧ f a = .ok b := by
  rcases x with e | a
  · constructor
    · intro h
      cases h
    · intro ⟨a, h, _⟩
      cases h
  · constructor
    · intro h
      exact ⟨a, rfl, h⟩
    · intro ⟨a', h, hf⟩
      cases h
      exact hf

/-- A second step fails only after the first has succeeded. -/
theorem bind_eq_error_iff {x : Except ε α} {e : ε} :
    x >>= f = .error e ↔ x = .error e ∨ ∃ a, x = .ok a ∧ f a = .error e := by
  rcases x with e' | a
  · constructor
    · intro h
      cases h
      exact .inl rfl
    · intro h
      rcases h with h | ⟨a, h, _⟩
      · cases h
        rfl
      · cases h
  · constructor
    · intro h
      exact .inr ⟨a, rfl, h⟩
    · intro h
      rcases h with h | ⟨a', h, hf⟩
      · cases h
      · cases h
        exact hf

theorem map_eq_ok_iff {g : α → β} {x : Except ε α} {b : β} :
    x.map g = .ok b ↔ ∃ a, x = .ok a ∧ g a = b := by
  cases x <;> simp [Except.map]

theorem map_eq_error_iff {g : α → β} {x : Except ε α} {e : ε} :
    x.map g = .error e ↔ x = .error e := by
  cases x <;> simp [Except.map]

theorem mapError_eq_ok_iff {g : ε → ε'} {x : Except ε α} {a : α} :
    x.mapError g = .ok a ↔ x = .ok a := by
  cases x <;> simp [Except.mapError]

theorem mapError_eq_error_iff {g : ε → ε'} {x : Except ε α} {e' : ε'} :
    x.mapError g = .error e' ↔ ∃ e, x = .error e ∧ g e = e' := by
  cases x <;> simp [Except.mapError]

/-- An outcome that is a success has a value. -/
theorem exists_eq_ok_of_isOk {x : Except ε α} (h : x.isOk = true) : ∃ a, x = .ok a := by
  cases x with
  | error e => cases h
  | ok a => exact ⟨a, rfl⟩

/-! ### Lists related element by element -/

/-- What stands in front of an element, the element and what stands behind it
    are related to the corresponding parts of the other list. -/
theorem forall₂_append_cons {R : α → β → Prop} {before after : List α} {a : α} {bs : List β}
    (h : List.Forall₂ R (before ++ a :: after) bs) :
    ∃ bs₁ b bs₂, bs = bs₁ ++ b :: bs₂ ∧ List.Forall₂ R before bs₁ ∧ R a b ∧
      List.Forall₂ R after bs₂ := by
  induction before generalizing bs with
  | nil =>
    obtain ⟨b, bs₂, hab, hafter, rfl⟩ := List.forall₂_cons_left_iff.mp h
    exact ⟨[], b, bs₂, rfl, List.Forall₂.nil, hab, hafter⟩
  | cons x before ih =>
    obtain ⟨y, ys, hxy, hrest, rfl⟩ := List.forall₂_cons_left_iff.mp h
    obtain ⟨bs₁, b, bs₂, rfl, hbefore, hab, hafter⟩ := ih hrest
    exact ⟨y :: bs₁, b, bs₂, rfl, List.Forall₂.cons hxy hbefore, hab, hafter⟩

/-- Every element of the one list is related to one of the other. -/
theorem exists_of_mem_left {R : α → β → Prop} {bs : List β} (h : List.Forall₂ R l bs) {a : α}
    (ha : a ∈ l) : ∃ b ∈ bs, R a b := by
  obtain ⟨before, after, rfl⟩ := List.append_of_mem ha
  obtain ⟨bs₁, b, bs₂, rfl, -, hab, -⟩ := forall₂_append_cons h
  exact ⟨b, by simp, hab⟩

/-- Every element of the other list is related to one of the first. -/
theorem exists_of_mem_right {R : α → β → Prop} {bs : List β} (h : List.Forall₂ R l bs) {b : β}
    (hb : b ∈ bs) : ∃ a ∈ l, R a b :=
  exists_of_mem_left (R := fun b a => R a b) h.flip hb

/-- Relations that agree on the elements of two lists relate the lists alike. -/
theorem forall₂_congr {R S : α → β → Prop} {bs : List β}
    (h : ∀ a ∈ l, ∀ b ∈ bs, (R a b ↔ S a b)) : List.Forall₂ R l bs ↔ List.Forall₂ S l bs := by
  rw [List.forall₂_iff_zip, List.forall₂_iff_zip, and_congr_right_iff]
  intro _
  constructor
  · intro hzip a b hab
    obtain ⟨ha, hb⟩ := List.of_mem_zip hab
    exact (h a ha b hb).mp (hzip hab)
  · intro hzip a b hab
    obtain ⟨ha, hb⟩ := List.of_mem_zip hab
    exact (h a ha b hb).mpr (hzip hab)

/-! ### Passes over a list -/

/-- A pass over a list succeeds with the results of all elements. -/
theorem mapM_eq_ok_iff {bs : List β} :
    l.mapM f = .ok bs ↔ List.Forall₂ (fun a b => f a = .ok b) l bs := by
  induction l generalizing bs with
  | nil =>
    rw [List.mapM_nil, List.forall₂_nil_left_iff]
    exact ⟨fun h => (Except.ok.inj h).symm, fun h => h ▸ rfl⟩
  | cons a l ih =>
    rw [List.mapM_cons, List.forall₂_cons_left_iff, bind_eq_ok_iff]
    constructor
    · intro ⟨b, ha, hrest⟩
      obtain ⟨cs, hl, hbs⟩ := bind_eq_ok_iff.mp hrest
      cases hbs
      exact ⟨b, cs, ha, ih.mp hl, rfl⟩
    · intro ⟨b, cs, ha, hl, hbs⟩
      refine ⟨b, ha, bind_eq_ok_iff.mpr ⟨cs, ih.mpr hl, ?_⟩⟩
      rw [hbs]
      rfl

/-- A pass over a list fails with the error of its first failing element. -/
theorem mapM_eq_error_iff {e : ε} :
    l.mapM f = .error e ↔ ∃ before a after, l = before ++ a :: after ∧
      (∀ b ∈ before, ∃ c, f b = .ok c) ∧ f a = .error e := by
  induction l with
  | nil =>
    rw [List.mapM_nil]
    constructor
    · intro h
      cases h
    · intro ⟨before, a, after, h, _⟩
      cases before <;> cases h
  | cons a l ih =>
    rw [List.mapM_cons, bind_eq_error_iff]
    constructor
    · intro h
      rcases h with ha | ⟨b, ha, hrest⟩
      · exact ⟨[], a, l, rfl, by simp, ha⟩
      · -- the first element succeeds, so the failure lies behind it
        have hl : l.mapM f = .error e := by
          rcases bind_eq_error_iff.mp hrest with hl | ⟨cs, _, hpure⟩
          · exact hl
          · cases hpure
        obtain ⟨before, x, after, rfl, hbefore, hx⟩ := ih.mp hl
        refine ⟨a :: before, x, after, rfl, ?_, hx⟩
        intro y hy
        rcases List.mem_cons.mp hy with rfl | hy
        · exact ⟨b, ha⟩
        · exact hbefore y hy
    · intro ⟨before, x, after, h, hbefore, hx⟩
      rcases before with - | ⟨y, before⟩
      · obtain ⟨rfl, rfl⟩ := List.cons.inj h
        exact .inl hx
      · obtain ⟨rfl, rfl⟩ := List.cons.inj h
        obtain ⟨b, ha⟩ := hbefore a List.mem_cons_self
        have hl : (before ++ x :: after).mapM f = .error e :=
          ih.mpr ⟨before, x, after, rfl, fun y hy => hbefore y (List.mem_cons_of_mem a hy), hx⟩
        exact .inr ⟨b, ha, bind_eq_error_iff.mpr (.inl hl)⟩

/-- A pass over a list succeeds when no element fails. -/
theorem exists_mapM_eq_ok_iff : (∃ bs, l.mapM f = .ok bs) ↔ ∀ a ∈ l, ∃ b, f a = .ok b := by
  constructor
  · intro ⟨bs, h⟩ a ha
    obtain ⟨b, -, hb⟩ := exists_of_mem_left (mapM_eq_ok_iff.mp h) ha
    exact ⟨b, hb⟩
  · intro h
    rcases hl : l.mapM f with e | bs
    · -- a pass that fails has an element that does
      obtain ⟨before, a, after, rfl, -, ha⟩ := mapM_eq_error_iff.mp hl
      have hmem : a ∈ before ++ a :: after := by simp
      obtain ⟨b, hb⟩ := h a hmem
      rw [hb] at ha
      cases ha
    · exact ⟨bs, rfl⟩

/-- A pass with two steps for each element succeeds when a pass with the first step
    does and then one with the second step. -/
theorem mapM_bind_eq_ok_iff {γ : Type} {g : β → Except ε γ} {cs : List γ} :
    l.mapM (fun a => f a >>= g) = .ok cs ↔ ∃ bs, l.mapM f = .ok bs ∧ bs.mapM g = .ok cs := by
  simp only [mapM_eq_ok_iff]
  constructor
  · intro h
    induction h with
    | nil => exact ⟨[], .nil, .nil⟩
    | cons hac _ ih =>
      obtain ⟨b, hab, hbc⟩ := bind_eq_ok_iff.mp hac
      obtain ⟨bs, hbs, hcs⟩ := ih
      exact ⟨b :: bs, .cons hab hbs, .cons hbc hcs⟩
  · intro ⟨bs, hbs, hcs⟩
    induction hbs generalizing cs with
    | nil =>
      cases hcs
      exact .nil
    | cons hab _ ih =>
      obtain ⟨c, cs, hbc, hrest, rfl⟩ := List.forall₂_cons_left_iff.mp hcs
      exact .cons (bind_eq_ok_iff.mpr ⟨_, hab, hbc⟩) (ih hrest)

/-- A pass that does not say why an element fails succeeds in the same way. -/
theorem mapM_eq_some_iff {g : α → Option β} {bs : List β} :
    l.mapM g = some bs ↔ List.Forall₂ (fun a b => g a = some b) l bs := by
  induction l generalizing bs with
  | nil => simp [eq_comm]
  | cons a l ih =>
    simp [List.mapM_cons, List.forall₂_cons_left_iff, Option.bind_eq_some_iff, ih, @eq_comm _ bs]

/-- What is written element by element is read back element by element. -/
theorem mapM_map_eq_some {write : α → β} {read : β → Option α}
    (h : ∀ a ∈ l, read (write a) = some a) : (l.map write).mapM read = some l := by
  rw [mapM_eq_some_iff, List.forall₂_map_left_iff, List.forall₂_same]
  exact h

end Outcome

end ProductSegments
