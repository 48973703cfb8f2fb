import ProductSegments.Predicate.Basic
import ProductSegments.Proofs.Double.Order

/-! # What the operators mean

  The order of values and the meaning of the six operators, said without
  computing a comparison:

  - `Value.SameAs` and `Value.Below` relate values of one kind. NaN is related
    to nothing, and the two zeros are the same.
  - `Operator.HoldsAmong` is the meaning of an operator for any number of values.
  - `Clause.holds_iff`: a clause computes this meaning.
-/

namespace ProductSegments

namespace Value

/-- The two values are of one kind and equal. -/
def SameAs : Value → Value → Prop
  | .number x, .number y => x.Equal y
  | .boolean a, .boolean b => a = b
  | .string s, .string t => s = t
  | _, _ => False

/-- The two values are of one kind and the first comes before the second. -/
def Below : Value → Value → Prop
  | .number x, .number y => x.Less y
  | .boolean a, .boolean b => a = false ∧ b = true
  | .string s, .string t => s < t
  | _, _ => False

variable {v w : Value}

theorem SameAs.kind_eq (h : w.SameAs v) : w.kind = v.kind := by
  cases w <;> cases v <;> first | rfl | exact h.elim

theorem Below.kind_eq (h : w.Below v) : w.kind = v.kind := by
  cases w <;> cases v <;> first | rfl | exact h.elim

/-! ### Comparing -/

/-- Two values are of different kinds, or both are numbers, booleans or strings. -/
theorem kind_cases (w v : Value) :
    w.kind ≠ v.kind ∨ (∃ x y, w = .number x ∧ v = .number y) ∨
      (∃ a b, w = .boolean a ∧ v = .boolean b) ∨ ∃ s t, w = .string s ∧ v = .string t := by
  cases w <;> cases v <;> simp [kind]

theorem compare?_of_kind_ne (h : w.kind ≠ v.kind) : w.compare? v = none := by
  cases w <;> cases v <;> first | rfl | exact absurd rfl h

theorem compare?_eq_eq_iff : w.compare? v = some .eq ↔ w.SameAs v := by
  rcases kind_cases w v with hkind | ⟨x, y, rfl, rfl⟩ | ⟨a, b, rfl, rfl⟩ | ⟨s, t, rfl, rfl⟩
  · -- values of different kinds are neither compared nor related
    rw [compare?_of_kind_ne hkind]
    exact ⟨fun h => (by cases h), fun h => absurd h.kind_eq hkind⟩
  · simp only [compare?, SameAs, Double.equal_iff, Double.compare?_eq_some_iff, Int.compare_eq_eq]
    constructor
    · intro h
      obtain ⟨i, j, hx, hy, hij⟩ := h
      exact ⟨i, hx, hij ▸ hy⟩
    · intro h
      obtain ⟨i, hx, hy⟩ := h
      exact ⟨i, i, hx, hy, rfl⟩
  · show some (compare a b) = some .eq ↔ a = b
    rw [Option.some.injEq]
    cases a <;> cases b <;> decide
  · show some (compare s t) = some .eq ↔ s = t
    rw [Option.some.injEq]
    exact compareOfLessAndEq_eq_eq String.le_refl String.not_le

theorem compare?_eq_lt_iff : w.compare? v = some .lt ↔ w.Below v := by
  rcases kind_cases w v with hkind | ⟨x, y, rfl, rfl⟩ | ⟨a, b, rfl, rfl⟩ | ⟨s, t, rfl, rfl⟩
  · rw [compare?_of_kind_ne hkind]
    exact ⟨fun h => (by cases h), fun h => absurd h.kind_eq hkind⟩
  · simp only [compare?, Below, Double.less_iff, Double.compare?_eq_some_iff, Int.compare_eq_lt]
  · show some (compare a b) = some .lt ↔ a = false ∧ b = true
    rw [Option.some.injEq]
    cases a <;> cases b <;> decide
  · show some (compare s t) = some .lt ↔ s < t
    rw [Option.some.injEq]
    exact compareOfLessAndEq_eq_lt

/-- Comparing the other way round turns the order round. -/
theorem compare?_swap (w v : Value) : w.compare? v = (v.compare? w).map Ordering.swap := by
  rcases kind_cases w v with hkind | ⟨x, y, rfl, rfl⟩ | ⟨a, b, rfl, rfl⟩ | ⟨s, t, rfl, rfl⟩
  · rw [compare?_of_kind_ne hkind, compare?_of_kind_ne (Ne.symm hkind)]
    rfl
  · simp only [compare?, Double.compare?]
    -- a number without a place in the order is incomparable on either side
    rcases x.rank? with - | i
    · rcases y.rank? with - | j <;> rfl
    · rcases y.rank? with - | j
      · rfl
      · exact congrArg some Std.OrientedOrd.eq_swap
  · exact congrArg some Std.OrientedOrd.eq_swap
  · exact congrArg some Std.OrientedOrd.eq_swap

theorem compare?_eq_gt_iff : w.compare? v = some .gt ↔ v.Below w := by
  rw [← compare?_eq_lt_iff, compare?_swap w v, Option.map_eq_some_iff]
  constructor
  · intro ⟨o, ho, hswap⟩
    rw [ho, Ordering.swap_eq_gt.mp hswap]
  · intro h
    exact ⟨.lt, h, rfl⟩

/-- Values of one kind are incomparable only when one of them is NaN. -/
theorem compare?_eq_none_iff (h : w.kind = v.kind) :
    w.compare? v = none ↔ w = .number .nan ∨ v = .number .nan := by
  rcases kind_cases w v with hkind | ⟨x, y, rfl, rfl⟩ | ⟨a, b, rfl, rfl⟩ | ⟨s, t, rfl, rfl⟩
  · exact absurd h hkind
  · -- NaN is the one number without a place in the order
    cases x <;> cases y <;> simp [compare?, Double.compare?, Double.rank?]
  · simp [compare?]
  · simp [compare?]

/-! ### The order of two values -/

theorem SameAs.symm (h : w.SameAs v) : v.SameAs w := by
  rw [← compare?_eq_eq_iff] at h ⊢
  rw [compare?_swap, h]
  rfl

theorem Below.not_sameAs (h : w.Below v) : ¬ w.SameAs v := by
  rw [← compare?_eq_lt_iff] at h
  rw [← compare?_eq_eq_iff, h]
  simp

theorem Below.not_below (h : w.Below v) : ¬ v.Below w := by
  rw [← compare?_eq_lt_iff] at h
  rw [← compare?_eq_gt_iff, h]
  simp

/-- Two values are in one of the three orders exactly when they are of one kind
    and neither is NaN. -/
theorem below_or_sameAs_or_below_iff :
    w.Below v ∨ w.SameAs v ∨ v.Below w ↔
      w.kind = v.kind ∧ w ≠ .number .nan ∧ v ≠ .number .nan := by
  rw [← compare?_eq_lt_iff, ← compare?_eq_eq_iff, ← compare?_eq_gt_iff]
  by_cases hkind : w.kind = v.kind
  · have hnone := compare?_eq_none_iff hkind
    -- an outcome of the comparison is one of three, and there is none only for NaN
    cases hc : w.compare? v with
    | none =>
      rw [hc] at hnone
      simp only [true_iff] at hnone
      rcases hnone with rfl | rfl <;> simp
    | some o =>
      rw [hc] at hnone
      simp only [reduceCtorEq, false_iff, not_or] at hnone
      cases o <;> simp [hkind, hnone]
  · rw [compare?_of_kind_ne hkind]
    simp [hkind]

end Value

namespace Operator

/-- The relation of an operator between a value of an attribute and the value
    of a rule. -/
def Relates : Operator → Value → Value → Prop
  | .eq, w, v => w.SameAs v
  | .ne, w, v => w.Below v ∨ v.Below w
  | .gt, w, v => v.Below w
  | .ge, w, v => v.Below w ∨ w.SameAs v
  | .lt, w, v => w.Below v
  | .le, w, v => w.Below v ∨ w.SameAs v

/-- An operator holds among the values that there are when one of them is of the
    kind of the rule's value and related to it, and `!=` when none of them equals
    it. -/
def HoldsAmong (op : Operator) (Has : Value → Prop) (v : Value) : Prop :=
  match op with
  | .ne => ∀ w, Has w → ¬ w.SameAs v
  | op => ∃ w, Has w ∧ w.kind = v.kind ∧ op.Relates w v

variable {op : Operator} {Has : Value → Prop} {v w : Value}

theorem Relates.kind_eq (h : op.Relates w v) : w.kind = v.kind := by
  cases op with
  | eq => exact Value.SameAs.kind_eq h
  | ne => exact h.elim Value.Below.kind_eq fun h => (Value.Below.kind_eq h).symm
  | gt => exact (Value.Below.kind_eq h).symm
  | ge => exact h.elim (fun h => (Value.Below.kind_eq h).symm) Value.SameAs.kind_eq
  | lt => exact Value.Below.kind_eq h
  | le => exact h.elim Value.Below.kind_eq Value.SameAs.kind_eq

/-- Being related implies being of one kind, so only `!=` is not an operator
    that asks for a related value. -/
theorem holdsAmong_iff (h : op ≠ .ne) : op.HoldsAmong Has v ↔ ∃ w, Has w ∧ op.Relates w v := by
  have hdef : op.HoldsAmong Has v ↔ ∃ w, Has w ∧ w.kind = v.kind ∧ op.Relates w v := by
    cases op <;> first | rfl | exact absurd rfl h
  rw [hdef]
  constructor
  · intro ⟨w, hw, _, hrel⟩
    exact ⟨w, hw, hrel⟩
  · intro ⟨w, hw, hrel⟩
    exact ⟨w, hw, hrel.kind_eq, hrel⟩

/-! ### Operators made of others -/

theorem holdsAmong_ne_iff : ne.HoldsAmong Has v ↔ ¬ eq.HoldsAmong Has v := by
  have heq : Operator.eq ≠ .ne := by decide
  rw [holdsAmong_iff heq]
  simp [HoldsAmong, Relates]

theorem holdsAmong_ge_iff : ge.HoldsAmong Has v ↔ gt.HoldsAmong Has v ∨ eq.HoldsAmong Has v := by
  have hge : Operator.ge ≠ .ne := by decide
  have hgt : Operator.gt ≠ .ne := by decide
  have heq : Operator.eq ≠ .ne := by decide
  rw [holdsAmong_iff hge, holdsAmong_iff hgt, holdsAmong_iff heq]
  simp only [Relates, and_or_left, exists_or]

theorem holdsAmong_le_iff : le.HoldsAmong Has v ↔ lt.HoldsAmong Has v ∨ eq.HoldsAmong Has v := by
  have hle : Operator.le ≠ .ne := by decide
  have hlt : Operator.lt ≠ .ne := by decide
  have heq : Operator.eq ≠ .ne := by decide
  rw [holdsAmong_iff hle, holdsAmong_iff hlt, holdsAmong_iff heq]
  simp only [Relates, and_or_left, exists_or]

/-- Among one value at most, an operator other than `!=` holds when the value is in
    its relation. -/
theorem holdsAmong_iff_of_unique (h : op ≠ .ne) (hw : Has w) (hunique : ∀ u, Has u → u = w) :
    op.HoldsAmong Has v ↔ op.Relates w v := by
  rw [holdsAmong_iff h]
  constructor
  · intro ⟨u, hu, hrel⟩
    rw [← hunique u hu]
    exact hrel
  · intro hrel
    exact ⟨w, hw, hrel⟩

/-- Accepting the outcome of a comparison decides the relation. -/
theorem any_accepts_iff : (w.compare? v).any op.accepts = true ↔ op.Relates w v := by
  have heq := @Value.compare?_eq_eq_iff v w
  have hlt := @Value.compare?_eq_lt_iff v w
  have hgt := @Value.compare?_eq_gt_iff v w
  -- the outcome decides all three relations at once
  rcases hc : w.compare? v with - | o
  · rw [hc] at heq hlt hgt
    cases op <;> simp [Relates, ← heq, ← hlt, ← hgt]
  · rw [hc] at heq hlt hgt
    cases op <;> cases o <;> simp [Relates, accepts, ← heq, ← hlt, ← hgt]

end Operator

/-! ### Clauses -/

namespace Clause

theorem anyHolds_iff {a : Attribute} {op : Operator} {v : Value} :
    anyHolds a op v = true ↔ ∃ w ∈ a.values, op.Relates w v := by
  unfold anyHolds
  rw [List.any_eq_true]
  simp only [Operator.any_accepts_iff]

/-- A clause holds of an attribute when its operator holds among the values. -/
theorem holds_iff {c : Clause} {a : Attribute} :
    c.holds a = true ↔ c.operator.HoldsAmong (· ∈ a.values) c.value := by
  by_cases hop : c.operator = .ne
  · -- `!=` is the denial of `=`, which also passes for no value at all
    have hholds : c.holds a = !anyHolds a .eq c.value := by
      unfold holds
      rw [hop]
    rw [hholds, hop, Bool.not_eq_true', Bool.eq_false_iff, Ne, anyHolds_iff]
    simp only [Operator.HoldsAmong, Operator.Relates, not_exists, not_and]
  · have hholds : c.holds a = anyHolds a c.operator c.value := by
      unfold holds
      split
      · next h => exact absurd h hop
      · rfl
    rw [hholds, anyHolds_iff, Operator.holdsAmong_iff hop]

/-- On the attribute of a product it holds among the values that the product has. -/
theorem holds_attributeAt_iff {c : Clause} {product : Product} {field : String} :
    c.holds (product.attributeAt field) = true ↔
      c.operator.HoldsAmong (product.Has field) c.value := by
  rw [holds_iff]
  simp only [Product.mem_values_attributeAt_iff]

end Clause

end ProductSegments
