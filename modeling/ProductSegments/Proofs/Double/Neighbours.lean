import Mathlib.Algebra.Group.Nat.Even
import Mathlib.Data.Nat.Dist
import Mathlib.Tactic.Ring
import ProductSegments.Double.Rounding

/-! # Neighbours on the binary64 grid

  A ratio lies between two neighbouring points of the grid, which are one gap
  apart. Rounding takes the nearer of them, so every other point is farther
  from the ratio or, if it is as far, has an odd significand. Distances are
  counted in parts of a unit, as many as the denominator says, which keeps them
  natural numbers.

  - `Double.Neighbours`: the two neighbours of a ratio and how far it is from them.
  - `Double.nearestUnits_roundUnits`: what is chosen against any other point.
  - `Double.roundUnits_lt_limit_iff`: a ratio rounds to a finite magnitude up to
    half a gap below the limit.
-/

namespace ProductSegments

namespace Double

variable {n d j k q u v : Nat}

/-! ### Significands -/

/-- The significand of a point of the grid: the number of gaps between zero and it. -/
def significand (u : Nat) : Nat := u / gap u

/-- A number of 53 bits, or of fewer at the finest scale, is a significand at its scale. -/
theorem gap_mul_two_pow (hk : k < 2 ^ 53) (hj : j = 0 ∨ 2 ^ 52 ≤ k) : gap (k * 2 ^ j) = 2 ^ j := by
  unfold gap
  congr 1
  rcases hj with rfl | hfull
  · -- at the finest scale fewer bits may be in use, and the gap is one unit
    by_cases hzero : k = 0
    · simp [hzero]
    · have hlog : k.log2 < 53 := (Nat.log2_lt hzero).mpr hk
      rw [Nat.pow_zero, Nat.mul_one]
      omega
  · have hlog : (k * 2 ^ j).log2 = 52 + j := by
      have hne : k * 2 ^ j ≠ 0 := Nat.mul_ne_zero (by omega) (Nat.two_pow_pos j).ne'
      rw [Nat.log2_eq_iff hne]
      constructor
      · rw [Nat.pow_add]
        exact Nat.mul_le_mul_right _ hfull
      · rw [Nat.add_right_comm, Nat.pow_add]
        exact Nat.mul_lt_mul_of_pos_right hk (Nat.two_pow_pos j)
    rw [hlog, Nat.add_sub_cancel_left]

theorem significand_mul_two_pow (hk : k < 2 ^ 53) (hj : j = 0 ∨ 2 ^ 52 ≤ k) :
    significand (k * 2 ^ j) = k := by
  rw [significand, gap_mul_two_pow hk hj, Nat.mul_div_cancel k (Nat.two_pow_pos j)]

/-- The next power of two has an even significand as well, at the next scale. -/
theorem even_significand_iff (hk : k ≤ 2 ^ 53) (hj : j = 0 ∨ 2 ^ 52 ≤ k) :
    Even (significand (k * 2 ^ j)) ↔ Even k := by
  rcases Nat.lt_or_eq_of_le hk with hlt | rfl
  · rw [significand_mul_two_pow hlt hj]
  · -- at its own scale it has a bit too many
    have hpow : 2 ^ 53 * 2 ^ j = 2 ^ 52 * 2 ^ (j + 1) := by
      rw [← Nat.pow_add, ← Nat.pow_add]
      congr 1
      omega
    rw [hpow, significand_mul_two_pow (by decide) (.inr (Nat.le_refl _))]
    exact iff_of_true (by decide) (by decide)

/-! ### Neighbours on the grid -/

/-- The gap at a number leaves it 53 bits, and fewer only at the finest scale. -/
theorem exists_gap_eq (q : Nat) :
    ∃ j, gap q = 2 ^ j ∧ q / gap q < 2 ^ 53 ∧ (j = 0 ∨ 2 ^ 52 ≤ q / gap q) := by
  refine ⟨q.log2 - 52, rfl, ?_, ?_⟩
  · apply Nat.div_lt_of_lt_mul
    have hlog : q < 2 ^ (q.log2 + 1) := Nat.lt_log2_self
    refine Nat.lt_of_lt_of_le hlog ?_
    rw [gap, ← Nat.pow_add]
    exact Nat.pow_le_pow_right (by decide) (by omega)
  · by_cases hsmall : q.log2 ≤ 52
    · exact .inl (by omega)
    · right
      have hne : q ≠ 0 := by
        rintro rfl
        exact hsmall (by simp)
      rw [Nat.le_div_iff_mul_le (gap_pos q), gap, ← Nat.pow_add]
      refine Nat.le_trans (Nat.pow_le_pow_right (by decide) (by omega)) (Nat.log2_self_le hne)

/-- No point of the grid lies strictly between a number's two neighbours. -/
theorem le_or_le_of_gap_dvd (hv : gap v ∣ v) (q : Nat) :
    v ≤ q / gap q * gap q ∨ (q / gap q + 1) * gap q ≤ v := by
  obtain ⟨j, hgap, -, hfull⟩ := exists_gap_eq q
  by_cases hle : v ≤ q / gap q * gap q
  · exact .inl hle
  right
  have hlt : q / gap q * gap q < v := Nat.lt_of_not_le hle
  -- above the lower neighbour the gaps are multiples of the one there
  have hdvd : gap q ∣ v := by
    rcases hfull with rfl | hfull
    · rw [hgap, Nat.pow_zero]
      exact Nat.one_dvd v
    · have hlog : 52 + j ≤ v.log2 := by
        rw [Nat.le_log2 (by omega), Nat.pow_add, ← hgap]
        exact Nat.le_trans (Nat.mul_le_mul_right _ hfull) (Nat.le_of_lt hlt)
      refine Nat.dvd_trans ?_ hv
      rw [hgap, gap]
      exact Nat.pow_dvd_pow 2 (by omega)
  obtain ⟨c, rfl⟩ := hdvd
  rw [Nat.mul_comm (gap q) c] at hlt ⊢
  exact Nat.mul_le_mul_right _ (Nat.lt_of_mul_lt_mul_right hlt)

/-! ### Rounding to the nearest -/

/-- The ratio `n / d` lies between two points of the grid, `low` gaps of size `2 ^ j` and one gap
    more, and stands `rest` of the `d` parts of a unit above the lower one. -/
structure Neighbours (n d low j rest : Nat) : Prop where
  /-- The lower neighbour and the rest make up the ratio. -/
  split : n = low * 2 ^ j * d + rest
  /-- The rest is less than a gap. -/
  rest_lt : rest < 2 ^ j * d
  /-- Both neighbours have significands at the scale, or the upper one is the next power of two. -/
  low_lt : low < 2 ^ 53
  /-- All 53 bits are in use, except at the finest scale. -/
  full : j = 0 ∨ 2 ^ 52 ≤ low
  /-- There is no point of the grid between them. -/
  grid : ∀ v, gap v ∣ v → v ≤ low * 2 ^ j ∨ (low + 1) * 2 ^ j ≤ v

theorem exists_neighbours (n : Nat) (hd : 0 < d) :
    ∃ j, gap (n / d) = 2 ^ j ∧
      Neighbours n d (n / (2 ^ j * d)) j (n % (2 ^ j * d)) := by
  obtain ⟨j, hgap, hlow, hfull⟩ := exists_gap_eq (n / d)
  have hgrid : ∀ v, gap v ∣ v → v ≤ n / d / gap (n / d) * 2 ^ j ∨
      (n / d / gap (n / d) + 1) * 2 ^ j ≤ v := by
    intro v hv
    rw [← hgap]
    exact le_or_le_of_gap_dvd hv (n / d)
  have hquot : n / d / gap (n / d) = n / (2 ^ j * d) := by
    rw [hgap, Nat.div_div_eq_div_mul, Nat.mul_comm]
  rw [hquot] at hlow hfull hgrid
  have hpos : 0 < 2 ^ j * d := Nat.mul_pos (Nat.two_pow_pos j) hd
  have hsplit : n = n / (2 ^ j * d) * 2 ^ j * d + n % (2 ^ j * d) := by
    rw [Nat.mul_assoc]
    exact (Nat.div_add_mod' n _).symm
  exact ⟨j, hgap, hsplit, Nat.mod_lt n hpos, hlow, hfull, hgrid⟩

/-- The point `u` of the grid is the nearest to `n / d` units: every other one is farther, or as
    far while `u` has an even significand and the other one has not. -/
def NearestUnits (n d u : Nat) : Prop :=
  ∀ v, gap v ∣ v → v ≠ u →
    Nat.dist (u * d) n < Nat.dist (v * d) n ∨
      (Nat.dist (u * d) n = Nat.dist (v * d) n ∧
        Even (significand u) ∧ ¬ Even (significand v))

namespace Neighbours

variable {low rest : Nat}

theorem dist_low (h : Neighbours n d low j rest) : Nat.dist (low * 2 ^ j * d) n = rest := by
  have hsplit := h.split
  unfold Nat.dist
  omega

theorem high_eq (h : Neighbours n d low j rest) :
    (low + 1) * 2 ^ j * d = n + (2 ^ j * d - rest) := by
  have hsplit := h.split
  have hlt := h.rest_lt
  have hgap : (low + 1) * 2 ^ j * d = low * 2 ^ j * d + 2 ^ j * d := by ring
  omega

theorem dist_high (h : Neighbours n d low j rest) :
    Nat.dist ((low + 1) * 2 ^ j * d) n = 2 ^ j * d - rest := by
  rw [h.high_eq]
  unfold Nat.dist
  omega

theorem even_low_iff (h : Neighbours n d low j rest) :
    Even (significand (low * 2 ^ j)) ↔ low % 2 = 0 := by
  rw [even_significand_iff (Nat.le_of_lt h.low_lt) h.full, Nat.even_iff]

theorem even_high_iff (h : Neighbours n d low j rest) :
    Even (significand ((low + 1) * 2 ^ j)) ↔ low % 2 ≠ 0 := by
  rw [even_significand_iff h.low_lt (h.full.imp_right Nat.le_succ_of_le), Nat.even_add_one,
    Nat.even_iff]

theorem lt_dist_of_lt (h : Neighbours n d low j rest) (hd : 0 < d) (hv : v < low * 2 ^ j) :
    rest < Nat.dist (v * d) n := by
  have hsplit := h.split
  have hlt : v * d < low * 2 ^ j * d := Nat.mul_lt_mul_of_pos_right hv hd
  unfold Nat.dist
  omega

theorem lt_dist_of_gt (h : Neighbours n d low j rest) (hd : 0 < d)
    (hv : (low + 1) * 2 ^ j < v) : 2 ^ j * d - rest < Nat.dist (v * d) n := by
  have hlt : (low + 1) * 2 ^ j * d < v * d := Nat.mul_lt_mul_of_pos_right hv hd
  rw [h.high_eq] at hlt
  unfold Nat.dist
  omega

/-- Below half-way up, and half-way up from an even significand, the lower neighbour is the
    nearest. -/
theorem nearestUnits_low (h : Neighbours n d low j rest) (hd : 0 < d)
    (hhalf : 2 * rest < 2 ^ j * d ∨ (2 * rest = 2 ^ j * d ∧ low % 2 = 0)) :
    NearestUnits n d (low * 2 ^ j) := by
  intro v hv hne
  rw [h.dist_low, h.even_low_iff]
  rcases h.grid v hv with hle | hge
  · exact .inl (h.lt_dist_of_lt hd (Nat.lt_of_le_of_ne hle hne))
  rcases Nat.eq_or_lt_of_le hge with rfl | hgt
  · -- the upper neighbour is as far only from half-way
    rw [h.dist_high, h.even_high_iff]
    omega
  · have hfar := h.lt_dist_of_gt hd hgt
    exact .inl (by omega)

/-- In the other cases it is the upper neighbour. -/
theorem nearestUnits_high (h : Neighbours n d low j rest) (hd : 0 < d)
    (hhalf : ¬ (2 * rest < 2 ^ j * d ∨ (2 * rest = 2 ^ j * d ∧ low % 2 = 0))) :
    NearestUnits n d ((low + 1) * 2 ^ j) := by
  intro v hv hne
  rw [h.dist_high, h.even_high_iff]
  rcases h.grid v hv with hle | hge
  · rcases Nat.eq_or_lt_of_le hle with rfl | hlt
    · -- the lower neighbour is as far only from half-way
      rw [h.dist_low, h.even_low_iff]
      omega
    · have hfar := h.lt_dist_of_lt hd hlt
      exact .inl (by omega)
  · exact .inl (h.lt_dist_of_gt hd (Nat.lt_of_le_of_ne hge (Ne.symm hne)))

end Neighbours

/-- A ratio is rounded to the nearest point of the grid. -/
theorem nearestUnits_roundUnits (n : Nat) (hd : 0 < d) : NearestUnits n d (roundUnits n d) := by
  obtain ⟨j, hgap, h⟩ := exists_neighbours n hd
  rw [roundUnits, hgap, Nat.mul_comm d, roundHalfEven]
  split
  · next hhalf => exact h.nearestUnits_low hd hhalf
  · next hhalf => exact h.nearestUnits_high hd hhalf

/-- No point of the grid is nearer to a ratio than the one it is rounded to. -/
theorem dist_roundUnits_le (hd : 0 < d) (hv : gap v ∣ v) :
    Nat.dist (roundUnits n d * d) n ≤ Nat.dist (v * d) n := by
  by_cases heq : v = roundUnits n d
  · rw [heq]
  · rcases nearestUnits_roundUnits n hd v hv heq with hlt | ⟨htie, _⟩
    · exact Nat.le_of_lt hlt
    · exact Nat.le_of_eq htie

/-! ### The largest magnitude -/

/-- Half the gap below the limit. -/
def halfTopGap : Nat := 2 ^ (limitExponent - 54)

/-- The largest finite magnitude, in units. -/
def largest : Nat := (2 ^ 53 - 1) * 2 ^ (limitExponent - 53)

theorem limit_eq : limit = 2 ^ 53 * 2 ^ (limitExponent - 53) := by
  rw [← Nat.pow_add, limit]
  congr 1

theorem limit_eq_largest_add : limit = largest + 2 * halfTopGap := by
  have hexp : limitExponent - 53 = limitExponent - 54 + 1 := rfl
  have hgap : 2 ^ (limitExponent - 53) = 2 * halfTopGap := by
    rw [hexp, Nat.pow_succ', halfTopGap]
  rw [limit_eq, largest, hgap]
  ring

theorem gap_dvd_limit : gap limit ∣ limit := by
  rw [limit_eq]
  exact gap_dvd_mul_two_pow (Nat.le_refl _)

theorem even_significand_limit : Even (significand limit) := by
  rw [limit_eq, even_significand_iff (Nat.le_refl _) (.inr (by decide))]
  decide

theorem gap_dvd_largest : gap largest ∣ largest := gap_dvd_mul_two_pow (by decide)

theorem le_largest_of_lt_limit (hu : gap u ∣ u) (h : u < limit) : u ≤ largest := by
  have hgap : gap largest = 2 ^ (limitExponent - 53) := by
    rw [largest, gap_mul_two_pow (by decide) (.inr (by decide))]
  have hlow : largest / gap largest = 2 ^ 53 - 1 := by
    rw [hgap, largest, Nat.mul_div_cancel _ (Nat.two_pow_pos _)]
  rcases le_or_le_of_gap_dvd hu largest with hle | hge
  · rwa [hlow, hgap] at hle
  · -- the upper neighbour of the largest magnitude is the limit
    rw [hlow, hgap, Nat.sub_add_cancel (by decide), ← limit_eq] at hge
    exact absurd h (Nat.not_lt.mpr hge)

/-- A ratio rounds to a finite magnitude if it is below the middle of the last gap. -/
theorem roundUnits_lt_limit_iff (hd : 0 < d) :
    roundUnits n d < limit ↔ n < (largest + halfTopGap) * d := by
  have hlimit : limit * d = largest * d + 2 * (halfTopGap * d) := by
    rw [limit_eq_largest_add]
    ring
  have hmiddle : (largest + halfTopGap) * d = largest * d + halfTopGap * d := Nat.add_mul _ _ _
  constructor
  · intro hlt
    have hle : roundUnits n d * d ≤ largest * d :=
      Nat.mul_le_mul_right _ (le_largest_of_lt_limit (gap_dvd_roundUnits n d) hlt)
    -- half-way to the limit, the limit has the even significand
    rcases nearestUnits_roundUnits n hd limit gap_dvd_limit (Nat.ne_of_gt hlt) with hnear | ⟨_, _, hodd⟩
    · unfold Nat.dist at hnear
      omega
    · exact absurd even_significand_limit hodd
  · -- what is rounded to the limit is not nearer to the largest magnitude
    intro hlt
    by_contra hge
    have hle : limit * d ≤ roundUnits n d * d := Nat.mul_le_mul_right _ (Nat.le_of_not_lt hge)
    have hpos : 0 < halfTopGap * d := Nat.mul_pos (Nat.two_pow_pos _) hd
    have hnear := dist_roundUnits_le (n := n) hd gap_dvd_largest
    unfold Nat.dist at hnear
    omega

end Double

end ProductSegments
