import ProductSegments.Proofs.Double.Order
import ProductSegments.Proofs.Text.ByteOrder
import ProductSegments.Proofs.Value.Relation

/-! # The order of values

  The values of one kind are in a linear order: numbers by size, false before
  true, texts by their bytes. What a value is compared with by one of the four
  order operators can therefore be replaced by a value further down or further
  up.

  - `Value.LessThan` and `Value.AtMost` say the order without the units of
    numbers and the code points of texts.
  - `Value.Below.trans` and its companions: the order is transitive.
  - `Operator.Relates.gt_of_atMost` and its companions: what an order operator
    relates to one value, it relates to the values on one side of it.
-/

namespace ProductSegments

namespace Value

variable {u v w : Value}

/-- The first value is less than the second one of its kind. -/
def LessThan : Value → Value → Prop
  | .number x, .number y => ∃ a b, x.toRat? = some a ∧ y.toRat? = some b ∧ a < b
  | .boolean a, .boolean b => a = false ∧ b = true
  | .string s, .string t => Text.bytes s < Text.bytes t
  | _, _ => False

/-- The first value is less than the second one of its kind, or equal to it. -/
def AtMost : Value → Value → Prop
  | .number x, .number y => ∃ a b, x.toRat? = some a ∧ y.toRat? = some b ∧ a ≤ b
  | .boolean a, .boolean b => a = false ∨ b = true
  | .string s, .string t => Text.bytes s ≤ Text.bytes t
  | _, _ => False

theorem LessThan.kind_eq (h : v.LessThan w) : v.kind = w.kind := by
  cases v <;> cases w <;> first | rfl | exact h.elim

theorem AtMost.kind_eq (h : v.AtMost w) : v.kind = w.kind := by
  cases v <;> cases w <;> first | rfl | exact h.elim

theorem LessThan.below (h : v.LessThan w) : v.Below w := by
  rcases kind_cases v w with hkind | ⟨x, y, rfl, rfl⟩ | ⟨a, b, rfl, rfl⟩ | ⟨s, t, rfl, rfl⟩
  · exact absurd h.kind_eq hkind
  · obtain ⟨a, b, hx, hy, hab⟩ := h
    exact .numbers hx hy hab
  · exact h
  · exact Text.bytes_lt_bytes_iff.mp h

theorem AtMost.below_or_sameAs (h : v.AtMost w) : v.Below w ∨ v.SameAs w := by
  rcases kind_cases v w with hkind | ⟨x, y, rfl, rfl⟩ | ⟨a, b, rfl, rfl⟩ | ⟨s, t, rfl, rfl⟩
  · exact absurd h.kind_eq hkind
  · obtain ⟨a, b, hx, hy, hab⟩ := h
    rcases lt_or_eq_of_le hab with hlt | rfl
    · exact .inl (.numbers hx hy hlt)
    · exact .inr (.numbers hx hy)
  · show (a = false ∧ b = true) ∨ a = b
    rcases h with rfl | rfl
    · cases b <;> simp
    · cases a <;> simp
  · have hnot : ¬ t < s := fun hlt => h (Text.bytes_lt_bytes_iff.mpr hlt)
    by_cases heq : s = t
    · exact .inr heq
    · exact .inl (Keyed.lt_of_not_lt_of_ne hnot (Ne.symm heq))

/-! ### Transitivity -/

/-- Three values of one kind are numbers, booleans or strings. -/
theorem cases_of_kind_eq (huv : u.kind = v.kind) (hvw : v.kind = w.kind) :
    (∃ x y z, u = .number x ∧ v = .number y ∧ w = .number z) ∨
      (∃ a b c, u = .boolean a ∧ v = .boolean b ∧ w = .boolean c) ∨
      ∃ r s t, u = .string r ∧ v = .string s ∧ w = .string t := by
  cases u <;> cases v <;> cases w <;> simp [kind] at huv hvw ⊢

theorem Below.trans (h : u.Below v) (h' : v.Below w) : u.Below w := by
  rcases cases_of_kind_eq h.kind_eq h'.kind_eq with
    ⟨x, y, z, rfl, rfl, rfl⟩ | ⟨a, b, c, rfl, rfl, rfl⟩ | ⟨r, s, t, rfl, rfl, rfl⟩
  · exact Double.Less.trans h h'
  · exact ⟨h.1, h'.2⟩
  · exact String.lt_trans h h'

/-- Equal values are below the same ones. -/
theorem SameAs.below_of_below (h : u.SameAs v) (h' : v.Below w) : u.Below w := by
  rcases cases_of_kind_eq h.kind_eq h'.kind_eq with
    ⟨x, y, z, rfl, rfl, rfl⟩ | ⟨a, b, c, rfl, rfl, rfl⟩ | ⟨r, s, t, rfl, rfl, rfl⟩
  · exact Double.Equal.less_of_less h h'
  · obtain rfl : a = b := h
    exact h'
  · obtain rfl : r = s := h
    exact h'

/-- Equal values are above the same ones. -/
theorem Below.below_of_sameAs (h : u.Below v) (h' : v.SameAs w) : u.Below w := by
  rcases cases_of_kind_eq h.kind_eq h'.kind_eq with
    ⟨x, y, z, rfl, rfl, rfl⟩ | ⟨a, b, c, rfl, rfl, rfl⟩ | ⟨r, s, t, rfl, rfl, rfl⟩
  · exact Double.Less.less_of_equal h h'
  · obtain rfl : b = c := h'
    exact h
  · obtain rfl : s = t := h'
    exact h

theorem SameAs.trans (h : u.SameAs v) (h' : v.SameAs w) : u.SameAs w := by
  rcases cases_of_kind_eq h.kind_eq h'.kind_eq with
    ⟨x, y, z, rfl, rfl, rfl⟩ | ⟨a, b, c, rfl, rfl, rfl⟩ | ⟨r, s, t, rfl, rfl, rfl⟩
  · exact Double.Equal.trans h h'
  · exact Eq.trans h h'
  · exact Eq.trans h h'

end Value

namespace Operator

variable {u v w : Value}

/-! ### Moving the threshold -/

/-- A value above a threshold is above every lower one. -/
theorem Relates.gt_of_atMost (h : gt.Relates w v) (huv : u.AtMost v) : gt.Relates w u := by
  show u.Below w
  rcases huv.below_or_sameAs with hbelow | hsame
  · exact hbelow.trans h
  · exact hsame.below_of_below h

theorem Relates.lt_of_atMost (h : lt.Relates w u) (huv : u.AtMost v) : lt.Relates w v := by
  show w.Below v
  rcases huv.below_or_sameAs with hbelow | hsame
  · exact Value.Below.trans h hbelow
  · exact Value.Below.below_of_sameAs h hsame

/-- A value that reaches a threshold is above every strictly lower one. -/
theorem Relates.gt_of_lessThan (h : ge.Relates w v) (huv : u.LessThan v) : gt.Relates w u := by
  show u.Below w
  rcases h with hbelow | hsame
  · exact huv.below.trans hbelow
  · exact huv.below.below_of_sameAs hsame.symm

theorem Relates.lt_of_lessThan (h : le.Relates w u) (huv : u.LessThan v) : lt.Relates w v := by
  show w.Below v
  rcases h with hbelow | hsame
  · exact hbelow.trans huv.below
  · exact hsame.below_of_below huv.below

theorem Relates.ge_of_atMost (h : ge.Relates w v) (huv : u.AtMost v) : ge.Relates w u := by
  show u.Below w ∨ w.SameAs u
  rcases h with hbelow | hsame
  · exact .inl (Relates.gt_of_atMost hbelow huv)
  · -- the value equals the upper threshold, whose place the lower one may share
    rcases huv.below_or_sameAs with hbelow | hsame'
    · exact .inl (hbelow.below_of_sameAs hsame.symm)
    · exact .inr (hsame.trans hsame'.symm)

theorem Relates.le_of_atMost (h : le.Relates w u) (huv : u.AtMost v) : le.Relates w v := by
  show w.Below v ∨ w.SameAs v
  rcases h with hbelow | hsame
  · exact .inl (Relates.lt_of_atMost hbelow huv)
  · rcases huv.below_or_sameAs with hbelow | hsame'
    · exact .inl (hsame.below_of_below hbelow)
    · exact .inr (hsame.trans hsame')

end Operator

end ProductSegments
