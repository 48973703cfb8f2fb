import ProductSegments.Double.OfDigits
import ProductSegments.Proofs.Double.Nearest

/-! # The order of binary64 values

  The place of a value in the order is its signed number of units, so finite
  values are ordered like the numbers that they are. Rounding never turns the
  order of two numbers round, though it may make them equal.

  - `Double.Less` and `Double.Equal` say the order without places.
  - `Double.less_iff` and `Double.equal_iff`: the places are in this order.
  - `Double.roundUnits_mono`: rounding is monotone.
  - `Double.integerRank` is the place of the value of an integer, monotone and,
    up to 2^53, exact.
-/

namespace ProductSegments

namespace Double

variable {n n' d : Nat} {i j : Int}

/-! ### Places and numbers -/

theorem signed_true (n : Nat) : signed true n = -(n : Int) := if_pos rfl

theorem signed_false (n : Nat) : signed false n = (n : Int) := if_neg (by decide)

theorem cast_signed (negative : Bool) (n : Nat) : (signed negative n : ℚ) = signedRat negative n := by
  cases negative with
  | true => simp [signed, signedRat]
  | false => simp [signed, signedRat]

/-- The place of a finite value is its number, counted in units. -/
theorem exists_rank?_of_toRat? {x : Double} {a : ℚ} (h : x.toRat? = some a) :
    ∃ i : Int, x.rank? = some i ∧ (i : ℚ) = a * 2 ^ unitExponent := by
  cases x with
  | nan => cases h
  | infinite _ => cases h
  | finite negative m =>
    have hpow : (2 : ℚ) ^ unitExponent ≠ 0 := pow_ne_zero _ (by norm_num)
    have hunits : m.toRat * 2 ^ unitExponent = m.units := div_mul_cancel₀ _ hpow
    obtain rfl : signedRat negative m.toRat = a := Option.some.inj h
    refine ⟨signed negative m.units, rfl, ?_⟩
    rw [cast_signed, ← hunits]
    cases negative with
    | true => exact neg_mul_eq_neg_mul _ _
    | false => rfl

/-- Values are in the order of their numbers. -/
theorem exists_rank?_le_iff {x y : Double} {a b : ℚ} (hx : x.toRat? = some a)
    (hy : y.toRat? = some b) :
    ∃ i j, x.rank? = some i ∧ y.rank? = some j ∧ (i ≤ j ↔ a ≤ b) := by
  have hpos : (0 : ℚ) < 2 ^ unitExponent := by positivity
  obtain ⟨i, hi, hia⟩ := exists_rank?_of_toRat? hx
  obtain ⟨j, hj, hjb⟩ := exists_rank?_of_toRat? hy
  refine ⟨i, j, hi, hj, ?_⟩
  rw [← Int.cast_le (R := ℚ), hia, hjb]
  exact mul_le_mul_iff_left₀ hpos

/-- The places of finite values are between those of the infinities. -/
theorem exists_rank?_between {x : Double} {a : ℚ} (h : x.toRat? = some a) :
    ∃ i : Int, x.rank? = some i ∧ -(limit : Int) < i ∧ i < limit := by
  cases x with
  | nan => cases h
  | infinite _ => cases h
  | finite negative m =>
    have hlimit : m.units < limit := m.representable.2
    refine ⟨signed negative m.units, rfl, ?_⟩
    unfold signed
    split <;> omega

/-- A value with a place is an infinity or a number. -/
theorem cases_of_rank? {x : Double} (h : x.rank? = some i) :
    (x = .infinite true ∧ i = -(limit : Int)) ∨ (x = .infinite false ∧ i = limit) ∨
      ∃ a, x.toRat? = some a ∧ -(limit : Int) < i ∧ i < limit := by
  cases x with
  | nan => cases h
  | infinite negative =>
    cases negative with
    | true => exact .inl ⟨rfl, (Option.some.inj h).symm⟩
    | false => exact .inr (.inl ⟨rfl, (Option.some.inj h).symm⟩)
  | finite negative m =>
    obtain ⟨i', hi', hbounds⟩ := exists_rank?_between (x := .finite negative m) rfl
    obtain rfl : i' = i := Option.some.inj (hi'.symm.trans h)
    exact .inr (.inr ⟨_, rfl, hbounds⟩)

/-! ### Less and equal values -/

/-- The first value is less than the second. NaN is neither. -/
inductive Less : Double → Double → Prop where
  /-- Finite values are in the order of their numbers. -/
  | numbers {x y : Double} {a b : ℚ} (hx : x.toRat? = some a) (hy : y.toRat? = some b)
      (h : a < b) : Less x y
  /-- The negative infinity is less than every finite value. -/
  | negative {y : Double} {b : ℚ} (hy : y.toRat? = some b) : Less (.infinite true) y
  /-- Every finite value is less than the positive infinity. -/
  | positive {x : Double} {a : ℚ} (hx : x.toRat? = some a) : Less x (.infinite false)
  /-- The negative infinity is less than the positive one. -/
  | infinities : Less (.infinite true) (.infinite false)

/-- The two values are equal. NaN is not equal to itself. -/
inductive Equal : Double → Double → Prop where
  /-- Finite values are equal when they are the same number. -/
  | numbers {x y : Double} {a : ℚ} (hx : x.toRat? = some a) (hy : y.toRat? = some a) : Equal x y
  /-- An infinity is equal to itself. -/
  | infinity (negative : Bool) : Equal (.infinite negative) (.infinite negative)

/-- The lesser value has the place further down. -/
theorem less_iff {x y : Double} :
    x.Less y ↔ ∃ i j, x.rank? = some i ∧ y.rank? = some j ∧ i < j := by
  have hpos : (0 : Int) < limit := by exact_mod_cast limit_pos
  constructor
  · intro h
    cases h with
    | numbers hx hy hlt =>
      obtain ⟨j, i, hj, hi, hle⟩ := exists_rank?_le_iff hy hx
      exact ⟨i, j, hi, hj, Int.not_le.mp fun hji => not_le.mpr hlt (hle.mp hji)⟩
    | negative hy =>
      obtain ⟨j, hj, hlow, -⟩ := exists_rank?_between hy
      exact ⟨_, j, rfl, hj, hlow⟩
    | positive hx =>
      obtain ⟨i, hi, -, hhigh⟩ := exists_rank?_between hx
      exact ⟨i, _, hi, rfl, hhigh⟩
    | infinities =>
      refine ⟨_, _, rfl, rfl, ?_⟩
      rw [signed_true, signed_false]
      omega
  · intro ⟨i, j, hi, hj, hlt⟩
    -- nothing has a place below the one infinity or above the other
    rcases cases_of_rank? hi with ⟨rfl, hi'⟩ | ⟨rfl, hi'⟩ | ⟨a, hx, hlow, -⟩
    · rcases cases_of_rank? hj with ⟨rfl, hj'⟩ | ⟨rfl, -⟩ | ⟨b, hy, -⟩
      · omega
      · exact .infinities
      · exact .negative hy
    · rcases cases_of_rank? hj with ⟨rfl, hj'⟩ | ⟨rfl, hj'⟩ | ⟨b, hy, -, hhigh⟩ <;> omega
    · rcases cases_of_rank? hj with ⟨rfl, hj'⟩ | ⟨rfl, -⟩ | ⟨b, hy, -⟩
      · omega
      · exact .positive hx
      · obtain ⟨j', i', hj', hi', hle⟩ := exists_rank?_le_iff hy hx
        obtain rfl : i' = i := Option.some.inj (hi'.symm.trans hi)
        obtain rfl : j' = j := Option.some.inj (hj'.symm.trans hj)
        exact .numbers hx hy (not_le.mp fun hba => Int.not_le.mpr hlt (hle.mpr hba))

/-- Equal values have the same place. -/
theorem equal_iff {x y : Double} : x.Equal y ↔ ∃ i, x.rank? = some i ∧ y.rank? = some i := by
  constructor
  · intro h
    cases h with
    | numbers hx hy =>
      obtain ⟨i, hi, hia⟩ := exists_rank?_of_toRat? hx
      obtain ⟨j, hj, hja⟩ := exists_rank?_of_toRat? hy
      have hij : i = j := by exact_mod_cast hia.trans hja.symm
      exact ⟨i, hi, hij ▸ hj⟩
    | infinity negative => exact ⟨_, rfl, rfl⟩
  · intro ⟨i, hi, hj⟩
    have hpos : (0 : Int) < limit := by exact_mod_cast limit_pos
    rcases cases_of_rank? hi with ⟨rfl, hi'⟩ | ⟨rfl, hi'⟩ | ⟨a, hx, hlow, hhigh⟩
    · rcases cases_of_rank? hj with ⟨rfl, -⟩ | ⟨rfl, hj'⟩ | ⟨b, hy, hlow, hhigh⟩
      · exact .infinity true
      · omega
      · omega
    · rcases cases_of_rank? hj with ⟨rfl, hj'⟩ | ⟨rfl, -⟩ | ⟨b, hy, hlow, hhigh⟩
      · omega
      · exact .infinity false
      · omega
    · rcases cases_of_rank? hj with ⟨rfl, hj'⟩ | ⟨rfl, hj'⟩ | ⟨b, hy, -⟩
      · omega
      · omega
      · -- one place is one number of units
        obtain ⟨i', hi', ha⟩ := exists_rank?_of_toRat? hx
        obtain ⟨j', hj', hb⟩ := exists_rank?_of_toRat? hy
        obtain rfl : i' = i := Option.some.inj (hi'.symm.trans hi)
        obtain rfl : j' = i' := Option.some.inj (hj'.symm.trans hj)
        have hpow : (2 : ℚ) ^ unitExponent ≠ 0 := pow_ne_zero _ (by norm_num)
        obtain rfl : a = b := mul_right_cancel₀ hpow (ha.symm.trans hb)
        exact .numbers hx hy

variable {x y z : Double}

theorem Less.trans (h : x.Less y) (h' : y.Less z) : x.Less z := by
  rw [less_iff] at h h' ⊢
  obtain ⟨i, j, hx, hy, hij⟩ := h
  obtain ⟨j', k, hy', hz, hjk⟩ := h'
  obtain rfl : j = j' := Option.some.inj (hy.symm.trans hy')
  exact ⟨i, k, hx, hz, Int.lt_trans hij hjk⟩

theorem Equal.less_of_less (h : x.Equal y) (h' : y.Less z) : x.Less z := by
  rw [equal_iff] at h
  rw [less_iff] at h' ⊢
  obtain ⟨i, hx, hy⟩ := h
  obtain ⟨j, k, hy', hz, hjk⟩ := h'
  obtain rfl : i = j := Option.some.inj (hy.symm.trans hy')
  exact ⟨i, k, hx, hz, hjk⟩

theorem Less.less_of_equal (h : x.Less y) (h' : y.Equal z) : x.Less z := by
  rw [equal_iff] at h'
  rw [less_iff] at h ⊢
  obtain ⟨i, j, hx, hy, hij⟩ := h
  obtain ⟨j', hy', hz⟩ := h'
  obtain rfl : j = j' := Option.some.inj (hy.symm.trans hy')
  exact ⟨i, j, hx, hz, hij⟩

theorem Equal.trans (h : x.Equal y) (h' : y.Equal z) : x.Equal z := by
  rw [equal_iff] at h h' ⊢
  obtain ⟨i, hx, hy⟩ := h
  obtain ⟨j, hy', hz⟩ := h'
  obtain rfl : i = j := Option.some.inj (hy.symm.trans hy')
  exact ⟨i, hx, hz⟩

/-! ### Rounding keeps the order -/

/-- The greater of two ratios is not rounded to less. -/
theorem roundUnits_mono (hd : 0 < d) (h : n ≤ n') : roundUnits n d ≤ roundUnits n' d := by
  by_contra hlt
  -- each of the two results would be no farther from its ratio than the other one is
  have hnear := dist_roundUnits_le (n := n) hd (gap_dvd_roundUnits n' d)
  have hnear' := dist_roundUnits_le (n := n') hd (gap_dvd_roundUnits n d)
  have hscaled : roundUnits n' d * d < roundUnits n d * d :=
    Nat.mul_lt_mul_of_pos_right (Nat.lt_of_not_le hlt) hd
  unfold Nat.dist at hnear hnear'
  have heq : n = n' := by omega
  rw [heq] at hlt
  exact hlt (Nat.le_refl _)

theorem rank?_ofRatio (negative : Bool) (n d : Nat) :
    (ofRatio negative n d).rank? = some (signed negative (min (roundUnits n d) limit)) := by
  unfold ofRatio
  by_cases hlt : roundUnits n d < limit
  · rw [dif_pos hlt, Nat.min_eq_left (Nat.le_of_lt hlt)]
    rfl
  · rw [dif_neg hlt, Nat.min_eq_right (Nat.le_of_not_lt hlt)]
    rfl

/-! ### Integers -/

/-- The place of the value nearest to a natural number. -/
def naturalRank (n : Nat) : Nat := min (naturalUnits n) limit

/-- The place of the value nearest to an integer. -/
def integerRank (i : Int) : Int := signed (i < 0) (naturalRank i.natAbs)

theorem rank?_ofInt (i : Int) : (ofInt i).rank? = some (integerRank i) := rank?_ofRatio _ _ _

theorem naturalRank_mono (h : n ≤ n') : naturalRank n ≤ naturalRank n' := by
  have hround : naturalUnits n ≤ naturalUnits n' :=
    roundUnits_mono Nat.one_pos (Nat.mul_le_mul_right _ h)
  unfold naturalRank
  omega

/-- Up to 53 bits a number is on the grid. -/
theorem naturalUnits_eq (h : n ≤ 2 ^ 53) : naturalUnits n = n * 2 ^ unitExponent := by
  have hround := roundUnits_mul_self (gap_dvd_mul_two_pow (k := unitExponent) h) Nat.one_pos
  rwa [Nat.mul_one] at hround

/-- A number of 64 bits does not reach the limit. -/
theorem naturalUnits_lt_limit (h : n ≤ 2 ^ 64) : naturalUnits n < limit := by
  have hpow : 2 ^ 64 * 2 ^ unitExponent = 1 * 2 ^ (64 + unitExponent) := by
    rw [Nat.one_mul, Nat.pow_add]
  have hself : roundUnits (1 * 2 ^ (64 + unitExponent)) 1 = 1 * 2 ^ (64 + unitExponent) := by
    have hgrid := gap_dvd_mul_two_pow (k := 64 + unitExponent) (by decide : 1 ≤ 2 ^ 53)
    simpa only [Nat.mul_one] using roundUnits_mul_self hgrid Nat.one_pos
  calc naturalUnits n ≤ naturalUnits (2 ^ 64) :=
        roundUnits_mono Nat.one_pos (Nat.mul_le_mul_right _ h)
    _ = 2 ^ (64 + unitExponent) := by rw [naturalUnits, hpow, hself, Nat.one_mul]
    _ < limit := Nat.pow_lt_pow_right (by decide) (by decide)

theorem naturalRank_eq (h : n ≤ 2 ^ 53) : naturalRank n = n * 2 ^ unitExponent := by
  have hlt : naturalUnits n < limit := naturalUnits_lt_limit (Nat.le_trans h (by decide))
  rw [naturalRank, Nat.min_eq_left (Nat.le_of_lt hlt), naturalUnits_eq h]

/-- The greater of two integers does not have the lesser value. -/
theorem integerRank_mono (h : i ≤ j) : integerRank i ≤ integerRank j := by
  unfold integerRank signed
  -- below zero the greater magnitude belongs to the lesser integer
  by_cases hi : i < 0
  · by_cases hj : j < 0
    · have hrank : naturalRank j.natAbs ≤ naturalRank i.natAbs := naturalRank_mono (by omega)
      simp only [hi, hj, decide_true, if_true]
      omega
    · simp only [hi, hj, decide_true, decide_false, if_true, Bool.false_eq_true, if_false]
      omega
  · have hj : ¬ j < 0 := by omega
    have hrank : naturalRank i.natAbs ≤ naturalRank j.natAbs := naturalRank_mono (by omega)
    simp only [hi, hj, decide_false, Bool.false_eq_true, if_false]
    omega

theorem lt_of_integerRank_lt (h : integerRank i < integerRank j) : i < j := by
  by_contra hle
  exact Int.not_le.mpr h (integerRank_mono (Int.not_lt.mp hle))

/-- Up to 53 bits the value of an integer is the integer. -/
theorem integerRank_eq (h : i.natAbs ≤ 2 ^ 53) : integerRank i = i * 2 ^ unitExponent := by
  unfold integerRank signed
  rw [naturalRank_eq h, Nat.cast_mul]
  by_cases hi : i < 0
  · have habs : (i.natAbs : Int) = -i := Int.ofNat_natAbs_of_nonpos (Int.le_of_lt hi)
    simp only [hi, decide_true, if_true, habs]
    push_cast
    ring
  · have habs : (i.natAbs : Int) = i := Int.natAbs_of_nonneg (Int.not_lt.mp hi)
    simp only [hi, decide_false, Bool.false_eq_true, if_false, habs]
    push_cast
    rfl

/-- A number with a sign put on it has the place of its rank with this sign. The
    two zeros share theirs. -/
theorem integerRank_signed (negative : Bool) (n : Nat) :
    integerRank (signed negative n) = signed negative (naturalRank n) := by
  have hzero : naturalRank 0 = 0 := by rw [naturalRank_eq (Nat.zero_le _), Nat.zero_mul]
  unfold integerRank
  cases negative with
  | false => simp [signed]
  | true =>
    by_cases hn : n = 0
    · simp [signed, hn, hzero]
    · simp [signed, Nat.pos_of_ne_zero hn]

end Double

end ProductSegments
