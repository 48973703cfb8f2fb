import ProductSegments.Decimal.Basic

/-! # The binary64 grid

  Every finite binary64 magnitude is a whole number of *units*, one unit being
  2^-1074, the least positive magnitude. Between two neighbouring powers of
  two the magnitudes are evenly spaced, 53 bits at most being significant, so
  the whole grid is described by one function on natural numbers, `gap`.

  - `Representable u` says that `u` units are a finite magnitude.
  - `roundUnits n d` is the point of the grid nearest to `n / d` units; of two
    equally near points it is the one with the even significand.
  - `representable_roundUnits`: below the limit, rounding lands on the grid.
-/

namespace ProductSegments

namespace Double

/-! ### The grid -/

/-- The value 1 is 2^1074 units. -/
def unitExponent : Nat := 1074

/-- The value 2^1024, which no finite magnitude reaches, is 2^2098 units. -/
def limitExponent : Nat := 2098

/-- The number of units that no finite magnitude reaches. -/
def limit : Nat := 2 ^ limitExponent

/-- The distance in units between the magnitudes near `u` units. -/
def gap (u : Nat) : Nat := 2 ^ (u.log2 - 52)

/-- A number of units is representable when it is a multiple of the gap at its
    size and stays below the limit. -/
def Representable (u : Nat) : Prop := gap u ∣ u ∧ u < limit

instance (u : Nat) : Decidable (Representable u) :=
  inferInstanceAs (Decidable (gap u ∣ u ∧ u < limit))

theorem gap_pos (u : Nat) : 0 < gap u := Nat.two_pow_pos _

theorem limit_pos : 0 < limit := Nat.two_pow_pos limitExponent

theorem representable_zero : Representable 0 := ⟨Nat.dvd_zero _, limit_pos⟩

/-- A significand of at most 53 bits, or the next power of two, is on the grid
    at every scale. -/
theorem gap_dvd_mul_two_pow {q k : Nat} (h : q ≤ 2 ^ 53) : gap (q * 2 ^ k) ∣ q * 2 ^ k := by
  by_cases hq : q = 0
  · simp [hq]
  rcases Nat.lt_or_eq_of_le h with hlt | rfl
  · -- below 2^53 the gap is at most 2^k, which divides the product
    have hne : q * 2 ^ k ≠ 0 := Nat.mul_ne_zero hq (Nat.ne_of_gt (Nat.two_pow_pos k))
    have hbound : q * 2 ^ k < 2 ^ (53 + k) := by
      rw [Nat.pow_add]; exact Nat.mul_lt_mul_of_pos_right hlt (Nat.two_pow_pos k)
    have hlog : (q * 2 ^ k).log2 < 53 + k := (Nat.log2_lt hne).2 hbound
    exact Nat.dvd_trans (Nat.pow_dvd_pow 2 (by omega)) (Nat.dvd_mul_left _ _)
  · rw [← Nat.pow_add, gap, Nat.log2_two_pow]
    exact Nat.pow_dvd_pow 2 (by omega)

/-! ### Rounding -/

/-- The integer nearest to `n / d`; a half goes to the even neighbour. -/
def roundHalfEven (n d : Nat) : Nat :=
  let q := n / d
  let r := n % d
  if 2 * r < d ∨ (2 * r = d ∧ q % 2 = 0) then q else q + 1

theorem roundHalfEven_le (n d : Nat) : roundHalfEven n d ≤ n / d + 1 := by
  simp only [roundHalfEven]; split <;> omega

/-- The point of the grid nearest to `n / d` units, the grid being continued
    past the limit; a half goes to the even significand. -/
def roundUnits (n d : Nat) : Nat :=
  roundHalfEven n (d * gap (n / d)) * gap (n / d)

/-- The significand that rounding chooses has at most 53 bits, or is the next
    power of two. -/
theorem roundHalfEven_gap_le (n d : Nat) : roundHalfEven n (d * gap (n / d)) ≤ 2 ^ 53 := by
  refine Nat.le_trans (roundHalfEven_le _ _) (Nat.succ_le_of_lt ?_)
  rw [← Nat.div_div_eq_div_mul]
  apply Nat.div_lt_of_lt_mul
  have hlog : n / d < 2 ^ ((n / d).log2 + 1) := Nat.lt_log2_self
  refine Nat.lt_of_lt_of_le hlog ?_
  rw [gap, ← Nat.pow_add]
  exact Nat.pow_le_pow_right (by decide) (by omega)

/-- Rounding lands on the grid. -/
theorem gap_dvd_roundUnits (n d : Nat) : gap (roundUnits n d) ∣ roundUnits n d :=
  gap_dvd_mul_two_pow (roundHalfEven_gap_le n d)

theorem representable_roundUnits {n d : Nat} (h : roundUnits n d < limit) :
    Representable (roundUnits n d) :=
  ⟨gap_dvd_roundUnits n d, h⟩

end Double

end ProductSegments
