import Mathlib.Algebra.Order.Field.Rat
import Mathlib.Algebra.Order.Ring.Abs
import Mathlib.Tactic.Linarith
import Mathlib.Tactic.Positivity
import ProductSegments.Proofs.Decimal.Grammar
import ProductSegments.Proofs.Double.Neighbours
import ProductSegments.Proofs.Double.Reading

/-! # Reading is rounding to the nearest

  A finite binary64 value is a rational number. The value that a numeral is
  read as is the one nearest to the number of the numeral and, of two equally
  near ones, the one with the even significand; there is no other. Numbers from
  the middle of the last gap on are read as an infinity.

  - `Double.NearestTo` is this property of a value, against all finite values.
  - `Double.ofNumeral_eq_finite_iff`: it determines what a numeral is read as.
-/

namespace ProductSegments

/-! ### Distances of signed numbers -/

theorem abs_signedRat (negative : Bool) (a : ℚ) : |signedRat negative a| = |a| := by
  cases negative with
  | true => exact abs_neg a
  | false => rfl

theorem abs_signedRat_sub (negative : Bool) (a b : ℚ) :
    |signedRat negative a - signedRat negative b| = |a - b| := by
  cases negative with
  | true =>
    show |-a - -b| = |a - b|
    rw [neg_sub_neg, abs_sub_comm]
  | false => rfl

/-- Numbers on different sides of zero are as far apart as zero lies from both. -/
theorem abs_signedRat_sub_of_ne {negative negative' : Bool} {a b : ℚ} (h : negative ≠ negative')
    (ha : 0 ≤ a) (hb : 0 ≤ b) : |signedRat negative a - signedRat negative' b| = a + b := by
  have hsum : |a + b| = a + b := abs_of_nonneg (add_nonneg ha hb)
  cases negative <;> cases negative'
  · exact absurd rfl h
  · show |a - -b| = a + b
    rw [sub_neg_eq_add, hsum]
  · show |-a - b| = a + b
    rw [← neg_add', abs_neg, hsum]
  · exact absurd rfl h

theorem signedRat_zero (negative : Bool) : signedRat negative 0 = 0 := by
  cases negative with
  | true => exact neg_zero
  | false => rfl

theorem natCast_dist (a b : Nat) : (Nat.dist a b : ℚ) = |(a : ℚ) - b| := by
  rcases Nat.le_total a b with h | h
  · have hcast : (a : ℚ) ≤ b := Nat.cast_le.mpr h
    rw [Nat.dist_eq_sub_of_le h, Nat.cast_sub h, abs_sub_comm, abs_of_nonneg (sub_nonneg.mpr hcast)]
  · have hcast : (b : ℚ) ≤ a := Nat.cast_le.mpr h
    rw [Nat.dist_eq_sub_of_le_right h, Nat.cast_sub h, abs_of_nonneg (sub_nonneg.mpr hcast)]

namespace Decimal

theorem toRat_nonneg (d : Decimal) : 0 ≤ d.toRat :=
  mul_nonneg (Nat.cast_nonneg _) (zpow_nonneg (by norm_num) _)

/-- Numerator and denominator make up the number of a decimal. -/
theorem toRat_mul_denominator (d : Decimal) (unit : Nat) :
    d.toRat * d.denominator * unit = d.numerator unit := by
  -- one of the two natural powers is one, as the exponent has one sign
  have hpow : (10 : ℚ) ^ d.exponent * 10 ^ (-d.exponent).toNat = 10 ^ d.exponent.toNat := by
    rw [← zpow_natCast, ← zpow_natCast, ← zpow_add₀ (by norm_num)]
    congr 1
    omega
  unfold toRat denominator numerator
  push_cast
  rw [mul_assoc (d.digits : ℚ), hpow]

end Decimal

/-! ### Magnitudes as rational numbers -/

namespace Magnitude

/-- The number that a magnitude is. -/
def toRat (m : Magnitude) : ℚ := m.units / 2 ^ Double.unitExponent

/-- Whether the significand of a magnitude is even. -/
def IsEven (m : Magnitude) : Prop := Even (Double.significand m.units)

theorem toRat_nonneg (m : Magnitude) : 0 ≤ m.toRat := by
  unfold toRat
  positivity

theorem toRat_zero : zero.toRat = 0 := by simp [toRat, zero]

theorem eq_of_units {m m' : Magnitude} (h : m.units = m'.units) : m = m' := by
  obtain ⟨units, hm⟩ := m
  obtain ⟨units', hm'⟩ := m'
  obtain rfl : units = units' := h
  rfl

theorem toRat_injective {m m' : Magnitude} (h : m.toRat = m'.toRat) : m = m' := by
  have hpow : (2 : ℚ) ^ Double.unitExponent ≠ 0 := pow_ne_zero _ (by norm_num)
  have hunits : (m.units : ℚ) = m'.units := (div_left_inj' hpow).mp h
  exact eq_of_units (Nat.cast_injective hunits)

/-- The distance of a magnitude from a decimal, in the parts of a unit that its denominator says. -/
theorem abs_toRat_sub_mul (m : Magnitude) (d : Decimal) :
    |m.toRat - d.toRat| * (d.denominator * 2 ^ Double.unitExponent) =
      Nat.dist (m.units * d.denominator) (d.numerator (2 ^ Double.unitExponent)) := by
  have hscale : |(d.denominator * 2 ^ Double.unitExponent : ℚ)| =
      d.denominator * 2 ^ Double.unitExponent := abs_of_nonneg (by positivity)
  have hunits : m.toRat * 2 ^ Double.unitExponent = m.units :=
    div_mul_cancel₀ _ (pow_ne_zero _ (by norm_num))
  have hnumerator := d.toRat_mul_denominator (2 ^ Double.unitExponent)
  push_cast at hnumerator
  calc |m.toRat - d.toRat| * (d.denominator * 2 ^ Double.unitExponent)
      = |(m.toRat - d.toRat) * (d.denominator * 2 ^ Double.unitExponent)| := by
        rw [abs_mul, hscale]
    _ = |m.toRat * 2 ^ Double.unitExponent * d.denominator -
          d.toRat * d.denominator * 2 ^ Double.unitExponent| := by
        congr 1
        ring
    _ = Nat.dist (m.units * d.denominator) (d.numerator (2 ^ Double.unitExponent)) := by
        rw [hunits, hnumerator, natCast_dist, Nat.cast_mul]

end Magnitude

namespace Double

variable {negative : Bool} {d : Decimal} {m m' : Magnitude}

theorem abs_toRat_sub_lt_iff :
    |m.toRat - d.toRat| < |m'.toRat - d.toRat| ↔
      Nat.dist (m.units * d.denominator) (d.numerator (2 ^ unitExponent)) <
        Nat.dist (m'.units * d.denominator) (d.numerator (2 ^ unitExponent)) := by
  have hscale : (0 : ℚ) < d.denominator * 2 ^ unitExponent :=
    mul_pos (Nat.cast_pos.mpr d.denominator_pos) (by positivity)
  rw [← mul_lt_mul_iff_left₀ hscale, m.abs_toRat_sub_mul, m'.abs_toRat_sub_mul, Nat.cast_lt]

theorem abs_toRat_sub_eq_iff :
    |m.toRat - d.toRat| = |m'.toRat - d.toRat| ↔
      Nat.dist (m.units * d.denominator) (d.numerator (2 ^ unitExponent)) =
        Nat.dist (m'.units * d.denominator) (d.numerator (2 ^ unitExponent)) := by
  have hscale : (d.denominator * 2 ^ unitExponent : ℚ) ≠ 0 :=
    (mul_pos (Nat.cast_pos.mpr d.denominator_pos) (by positivity)).ne'
  rw [← mul_left_inj' hscale, m.abs_toRat_sub_mul, m'.abs_toRat_sub_mul, Nat.cast_inj]

/-! ### What a decimal is read as -/

/-- The magnitude that a decimal is read as is nearer to it than any other, or as near and the one
    of the two with an even significand. -/
theorem magnitude_nearest (h : ofDecimal negative d = .finite negative m) (hne : m' ≠ m) :
    |m.toRat - d.toRat| < |m'.toRat - d.toRat| ∨
      (|m.toRat - d.toRat| = |m'.toRat - d.toRat| ∧ m.IsEven ∧ ¬ m'.IsEven) := by
  rw [ofDecimal_eq_ofRatio, ofRatio_eq_finite_iff] at h
  have hunits : m'.units ≠ roundUnits (d.numerator (2 ^ unitExponent)) d.denominator := by
    intro heq
    exact hne (Magnitude.eq_of_units (heq.trans h))
  have hnear := nearestUnits_roundUnits _ d.denominator_pos m'.units m'.representable.1 hunits
  rw [h] at hnear
  rwa [abs_toRat_sub_lt_iff, abs_toRat_sub_eq_iff]

/-! ### Overflow -/

/-- Half a gap below the power of two that no finite magnitude reaches. -/
def overflowBound : ℚ := 2 ^ 1024 - 2 ^ 970

theorem overflowBound_mul : overflowBound * 2 ^ unitExponent = (largest + halfTopGap : Nat) := by
  have hlimit : (2 : ℚ) ^ 1024 * 2 ^ unitExponent = (limit : Nat) := by
    rw [← pow_add, limit, Nat.cast_pow, Nat.cast_ofNat]
    congr 1
  have hhalf : (2 : ℚ) ^ 970 * 2 ^ unitExponent = (halfTopGap : Nat) := by
    rw [← pow_add, halfTopGap, Nat.cast_pow, Nat.cast_ofNat]
    congr 1
  rw [overflowBound, sub_mul, hlimit, hhalf, limit_eq_largest_add]
  push_cast
  ring

/-- A decimal is read as a finite value if and only if its number is below the bound. -/
theorem toRat_lt_overflowBound_iff (negative : Bool) :
    d.toRat < overflowBound ↔ ∃ m, ofDecimal negative d = .finite negative m := by
  have hpos : (0 : ℚ) < d.denominator * 2 ^ unitExponent :=
    mul_pos (Nat.cast_pos.mpr d.denominator_pos) (by positivity)
  have hnumerator := d.toRat_mul_denominator (2 ^ unitExponent)
  push_cast at hnumerator
  have hround : d.toRat < overflowBound ↔
      roundUnits (d.numerator (2 ^ unitExponent)) d.denominator < limit := by
    calc d.toRat < overflowBound
        ↔ d.toRat * (d.denominator * 2 ^ unitExponent) <
            overflowBound * (d.denominator * 2 ^ unitExponent) := (mul_lt_mul_iff_left₀ hpos).symm
      _ ↔ d.toRat * d.denominator * 2 ^ unitExponent <
            overflowBound * 2 ^ unitExponent * d.denominator := by
          rw [mul_assoc, mul_assoc, mul_comm (2 ^ unitExponent : ℚ) d.denominator]
      _ ↔ d.numerator (2 ^ unitExponent) < (largest + halfTopGap) * d.denominator := by
          rw [hnumerator, overflowBound_mul, ← Nat.cast_mul, Nat.cast_lt]
      _ ↔ roundUnits (d.numerator (2 ^ unitExponent)) d.denominator < limit :=
          (roundUnits_lt_limit_iff d.denominator_pos).symm
  rw [hround, ofDecimal_eq_ofRatio]
  constructor
  · intro hlt
    exact ⟨⟨_, representable_roundUnits hlt⟩, dif_pos hlt⟩
  · rintro ⟨m, hm⟩
    rw [ofRatio_eq_finite_iff] at hm
    rw [hm]
    exact m.representable.2

/-! ### The nearest value -/

/-- The number that a finite value is. -/
def toRat? : Double → Option ℚ
  | .finite negative m => some (signedRat negative m.toRat)
  | _ => none

/-- Whether the value is finite and has an even significand. -/
def IsEven : Double → Prop
  | .finite _ m => m.IsEven
  | _ => False

theorem isFinite_iff {x : Double} : x.isFinite = true ↔ ∃ negative m, x = .finite negative m := by
  cases x <;> simp [isFinite]

/-- The value is the nearest to a number: every finite value of another number is farther from it,
    or as far while this one has an even significand. -/
def NearestTo (x : Double) (q : ℚ) : Prop :=
  ∃ a, x.toRat? = some a ∧ ∀ (y : Double) (b : ℚ), y.toRat? = some b → b ≠ a →
    |a - q| < |b - q| ∨ (|a - q| = |b - q| ∧ x.IsEven)

/-- No value on the other side of zero is nearer to a decimal than the magnitude it is read as. -/
theorem nearest_across_zero (h : ofDecimal negative d = .finite negative m)
    (hne : m.toRat ≠ 0 ∨ m'.toRat ≠ 0) :
    |m.toRat - d.toRat| < m'.toRat + d.toRat ∨
      (|m.toRat - d.toRat| = m'.toRat + d.toRat ∧ m.IsEven) := by
  have hm' := m'.toRat_nonneg
  have hzero : |Magnitude.zero.toRat - d.toRat| = d.toRat := by
    rw [Magnitude.toRat_zero, zero_sub, abs_neg, abs_of_nonneg d.toRat_nonneg]
  by_cases hm : m = .zero
  · -- the other value lies beyond the zero that was read
    have hpos : 0 < m'.toRat := by
      apply lt_of_le_of_ne hm'
      intro heq
      rw [hm, Magnitude.toRat_zero, ← heq] at hne
      simp at hne
    left
    rw [hm, hzero]
    linarith
  · -- zero is no farther than the other value, and was not read
    rcases magnitude_nearest h (Ne.symm hm) with hlt | ⟨heq, heven, _⟩
    · left
      linarith
    · rcases hm'.lt_or_eq with hlt | hm'
      · left
        linarith
      · right
        exact ⟨by linarith, heven⟩

/-- What a decimal is read as is the nearest value to it. -/
theorem nearestTo_of_ofDecimal (h : ofDecimal negative d = .finite negative m) :
    (finite negative m).NearestTo (signedRat negative d.toRat) := by
  refine ⟨signedRat negative m.toRat, rfl, ?_⟩
  intro y b hy hne
  cases y with
  | nan => cases hy
  | infinite _ => cases hy
  | finite negative' m' =>
    obtain rfl : signedRat negative' m'.toRat = b := Option.some.inj hy
    rw [abs_signedRat_sub negative]
    by_cases hsign : negative' = negative
    · subst hsign
      have hm : m' ≠ m := by
        rintro rfl
        exact hne rfl
      rw [abs_signedRat_sub]
      exact (magnitude_nearest h hm).imp_right fun htie => ⟨htie.1, htie.2.1⟩
    · rw [abs_signedRat_sub_of_ne hsign m'.toRat_nonneg d.toRat_nonneg]
      apply nearest_across_zero h
      -- two zeros are one number
      by_contra hzero
      rw [not_or, not_not, not_not] at hzero
      rw [hzero.1, hzero.2, signedRat_zero, signedRat_zero] at hne
      exact hne rfl

/-- The nearest value of a sign is what a decimal is read as. -/
theorem eq_of_nearestTo (h : ofDecimal negative d = .finite negative m)
    (h' : (finite negative m').NearestTo (signedRat negative d.toRat)) : m' = m := by
  by_contra hne
  obtain ⟨a, ha, hnear⟩ := h'
  obtain rfl : signedRat negative m'.toRat = a := Option.some.inj ha
  have hother : signedRat negative m.toRat ≠ signedRat negative m'.toRat := by
    intro heq
    have hdist := abs_signedRat_sub negative m.toRat m'.toRat
    rw [heq, sub_self, abs_zero] at hdist
    exact hne (Magnitude.toRat_injective (sub_eq_zero.mp (abs_eq_zero.mp hdist.symm))).symm
  -- each of the two would have to be nearer than the other, or both even
  have hback := hnear (finite negative m) _ rfl hother
  rw [abs_signedRat_sub, abs_signedRat_sub] at hback
  rcases magnitude_nearest h hne with hlt | ⟨heq, _, hodd⟩
  · rcases hback with hlt' | ⟨heq', _⟩ <;> linarith
  · rcases hback with hlt' | ⟨_, heven⟩
    · linarith
    · exact hodd heven

/-- Rounding keeps the sign, also that of a number that vanishes. -/
theorem negative_eq_of_ofDecimal {negative' : Bool} (h : ofDecimal negative d = .finite negative' m) :
    negative = negative' := by
  rw [ofDecimal_eq_ofRatio] at h
  unfold ofRatio at h
  split at h
  · injection h
  · contradiction

variable {n : Numeral}

theorem abs_toRat_eq (n : Numeral) : |n.toRat| = n.magnitude.toRat := by
  rw [Numeral.toRat, abs_signedRat, abs_of_nonneg n.magnitude.toRat_nonneg]

/-- A numeral is read as a finite value if and only if its number is below the bound. -/
theorem isFinite_ofNumeral_iff : (ofNumeral n).isFinite = true ↔ |n.toRat| < overflowBound := by
  rw [abs_toRat_eq, toRat_lt_overflowBound_iff n.negative]
  constructor
  · intro h
    obtain ⟨negative, m, hm⟩ := isFinite_iff.mp h
    obtain rfl := negative_eq_of_ofDecimal hm
    exact ⟨m, hm⟩
  · rintro ⟨m, hm⟩
    rw [ofNumeral, hm]
    rfl

/-- A numeral is read as a finite value of its sign if and only if its number is below the bound
    and the value is the nearest one. -/
theorem ofNumeral_eq_finite_iff :
    ofNumeral n = .finite negative m ↔
      n.negative = negative ∧ |n.toRat| < overflowBound ∧ (finite negative m).NearestTo n.toRat := by
  rw [abs_toRat_eq]
  constructor
  · intro h
    obtain rfl := negative_eq_of_ofDecimal h
    exact ⟨rfl, (toRat_lt_overflowBound_iff _).mpr ⟨m, h⟩, nearestTo_of_ofDecimal h⟩
  · rintro ⟨rfl, hlt, hnear⟩
    obtain ⟨m', hm'⟩ := (toRat_lt_overflowBound_iff n.negative).mp hlt
    rw [eq_of_nearestTo hm' hnear]
    exact hm'

end Double

end ProductSegments
