import Mathlib.Tactic.Ring
import ProductSegments.Double.Shortest

/-! # Reading exact decimals

  Reading a decimal rounds the exact ratio that it denotes, so it depends on
  the number alone and not on how digits and exponent share it. A decimal that
  denotes a number of the grid is read as that number.

  - `ofDecimal_eq_ofRatio`: the two bounds of the reader only save work.
  - `ofDecimal_of_sameNumber`: two decimals of the same number are read alike.
  - `ofDecimal_exactDecimal` and `ofDecimal_shortest`: the exact expansion and
    the shortest digits of a magnitude are read as this magnitude.
-/

namespace ProductSegments

namespace Decimal

/-! ### The number of a decimal -/

/-- Two decimals denote the same number. -/
def SameNumber (d d' : Decimal) : Prop :=
  d.numerator 1 * d'.denominator = d'.numerator 1 * d.denominator

theorem numerator_places (digits places unit : Nat) :
    numerator ⟨digits, -(places : Int)⟩ unit = digits * unit := by
  have hnat : (-(places : Int)).toNat = 0 := Int.toNat_neg_natCast places
  simp only [numerator, hnat, Nat.pow_zero, Nat.mul_one]

theorem denominator_places (digits places : Nat) :
    denominator ⟨digits, -(places : Int)⟩ = 10 ^ places := by
  have hnat : (- -(places : Int)).toNat = places := by omega
  simp only [denominator, hnat]

theorem sameNumber_shift (digits k : Nat) (exponent : Int) :
    SameNumber ⟨digits * 10 ^ k, exponent⟩ ⟨digits, exponent + k⟩ := by
  have hexp : k + exponent.toNat + (-(exponent + k)).toNat =
      (exponent + k).toNat + (-exponent).toNat := by omega
  show digits * 10 ^ k * 10 ^ exponent.toNat * 1 * 10 ^ (-(exponent + k)).toNat =
    digits * 10 ^ (exponent + k).toNat * 1 * 10 ^ (-exponent).toNat
  rw [Nat.mul_one, Nat.mul_one, Nat.mul_assoc digits, ← Nat.pow_add, Nat.mul_assoc digits,
    ← Nat.pow_add, hexp, Nat.mul_assoc digits, ← Nat.pow_add]

theorem SameNumber.symm {d d' : Decimal} (h : d.SameNumber d') : d'.SameNumber d := Eq.symm h

theorem SameNumber.trans {d d' d'' : Decimal} (h : d.SameNumber d') (h' : d'.SameNumber d'') :
    d.SameNumber d'' := by
  unfold SameNumber at *
  have hcancel : d.numerator 1 * d''.denominator * d'.denominator =
      d''.numerator 1 * d.denominator * d'.denominator := by
    calc d.numerator 1 * d''.denominator * d'.denominator
        = d.numerator 1 * d'.denominator * d''.denominator := Nat.mul_right_comm _ _ _
      _ = d'.numerator 1 * d''.denominator * d.denominator := by rw [h, Nat.mul_right_comm]
      _ = d''.numerator 1 * d.denominator * d'.denominator := by rw [h', Nat.mul_right_comm]
  exact Nat.mul_right_cancel d'.denominator_pos hcancel

/-- Taking off trailing zeros keeps the number. -/
theorem sameNumber_dropZeros (fuel : Nat) (d : Decimal) : (dropZeros fuel d).SameNumber d := by
  -- induction on the fuel: each step moves one zero into the exponent
  induction fuel generalizing d with
  | zero => rfl
  | succ fuel ih =>
    unfold dropZeros
    split
    · next hzero =>
      have hdigits : d.digits / 10 * 10 ^ 1 = d.digits := by omega
      have hshift := sameNumber_shift (d.digits / 10) 1 d.exponent
      rw [hdigits] at hshift
      exact (ih _).trans hshift.symm
    · rfl

theorem sameNumber_normalize (d : Decimal) : d.normalize.SameNumber d := by
  unfold normalize
  split
  · rfl
  · exact sameNumber_dropZeros _ d

end Decimal

namespace Double

variable {n d c n' d' u : Nat} {negative : Bool}

/-! ### Rounding depends on the ratio only -/

theorem roundHalfEven_mul_right (n d : Nat) (hc : 0 < c) :
    roundHalfEven (n * c) (d * c) = roundHalfEven n d := by
  have hdiv : n * c / (d * c) = n / d := Nat.mul_div_mul_right n d hc
  have hmod : n * c % (d * c) = n % d * c := Nat.mul_mod_mul_right c n d
  have hlt : 2 * (n % d * c) < d * c ↔ 2 * (n % d) < d := by
    rw [← Nat.mul_assoc]
    exact Nat.mul_lt_mul_right hc
  have heq : 2 * (n % d * c) = d * c ↔ 2 * (n % d) = d := by
    rw [← Nat.mul_assoc]
    exact Nat.mul_left_inj (Nat.pos_iff_ne_zero.mp hc)
  simp only [roundHalfEven, hdiv, hmod, hlt, heq]

theorem roundUnits_mul_right (n d : Nat) (hc : 0 < c) :
    roundUnits (n * c) (d * c) = roundUnits n d := by
  have hdiv : n * c / (d * c) = n / d := Nat.mul_div_mul_right n d hc
  have hscale : d * c * gap (n / d) = d * gap (n / d) * c := Nat.mul_right_comm _ _ _
  -- the gap is taken at the quotient, which does not change
  unfold roundUnits
  rw [hdiv, hscale, roundHalfEven_mul_right _ _ hc]

/-- Two equal ratios round to the same value. -/
theorem ofRatio_of_mul_eq (hd : 0 < d) (hd' : 0 < d') (h : n * d' = n' * d) :
    ofRatio negative n d = ofRatio negative n' d' := by
  have hround : roundUnits n d = roundUnits n' d' := by
    calc roundUnits n d = roundUnits (n * d') (d * d') := (roundUnits_mul_right n d hd').symm
      _ = roundUnits (n' * d) (d' * d) := by rw [h, Nat.mul_comm d d']
      _ = roundUnits n' d' := roundUnits_mul_right n' d' hd
  simp only [ofRatio, hround]

/-! ### What lies on the grid stays -/

/-- A number of the grid rounds to itself. -/
theorem roundUnits_mul_self (h : gap u ∣ u) (hd : 0 < d) : roundUnits (u * d) d = u := by
  obtain ⟨k, hk⟩ := h
  have hdiv : u * d / d = u := Nat.mul_div_cancel u hd
  have hgap : 0 < d * gap u := Nat.mul_pos hd (gap_pos u)
  have hmul : u * d = k * (d * gap u) := by
    conv => lhs; rw [hk]
    ring
  have hquot : roundHalfEven (u * d) (d * gap u) = k := by
    unfold roundHalfEven
    rw [hmul, Nat.mul_div_cancel k hgap, Nat.mul_mod_left]
    simp [hgap]
  unfold roundUnits
  rw [hdiv, hquot, Nat.mul_comm]
  exact hk.symm

/-- A ratio is read as the magnitude that it rounds to, whatever the sign. -/
theorem ofRatio_eq_finite_iff {m : Magnitude} :
    ofRatio negative n d = .finite negative m ↔ roundUnits n d = m.units := by
  unfold ofRatio
  by_cases hlt : roundUnits n d < limit
  · rw [dif_pos hlt]
    obtain ⟨units, hunits⟩ := m
    simp
  · -- what rounds to the limit or beyond is no magnitude
    rw [dif_neg hlt]
    have hne : roundUnits n d ≠ m.units := by
      intro heq
      exact hlt (heq ▸ m.representable.2)
    simp [hne]

theorem ofRatio_units (m : Magnitude) (hd : 0 < d) :
    ofRatio negative (m.units * d) d = .finite negative m :=
  ofRatio_eq_finite_iff.mpr (roundUnits_mul_self m.representable.1 hd)

/-! ### The bounds of the reader -/

/-- Rounding does not fall below the power of two under a ratio. -/
theorem two_pow_log2_le_roundUnits (h : n / d ≠ 0) : 2 ^ (n / d).log2 ≤ roundUnits n d := by
  obtain ⟨q, hq⟩ : ∃ q, q = n / d := ⟨_, rfl⟩
  rw [← hq] at h ⊢
  have hlog : 2 ^ q.log2 ≤ q := Nat.log2_self_le h
  -- the power is a multiple of the gap, so it survives rounding down
  have hsplit : 2 ^ q.log2 = 2 ^ (q.log2 - (q.log2 - 52)) * gap q := by
    unfold gap
    rw [← Nat.pow_add]
    congr 1
    omega
  have hfloor : 2 ^ (q.log2 - (q.log2 - 52)) ≤ n / (d * gap q) := by
    rw [← Nat.div_div_eq_div_mul, ← hq, Nat.le_div_iff_mul_le (gap_pos q), ← hsplit]
    exact hlog
  have hround : n / (d * gap q) ≤ roundHalfEven n (d * gap q) := by
    simp only [roundHalfEven]
    split <;> omega
  unfold roundUnits
  rw [← hq]
  calc 2 ^ q.log2 = 2 ^ (q.log2 - (q.log2 - 52)) * gap q := hsplit
    _ ≤ roundHalfEven n (d * gap q) * gap q :=
      Nat.mul_le_mul_right _ (Nat.le_trans hfloor hround)

/-- A ratio at the limit or above it is infinite. -/
theorem ofRatio_of_limit_le (h : limit ≤ n / d) : ofRatio negative n d = .infinite negative := by
  have hne : n / d ≠ 0 := Nat.pos_iff_ne_zero.mp (Nat.lt_of_lt_of_le limit_pos h)
  have hexp : limitExponent ≤ (n / d).log2 := (Nat.le_log2 hne).mpr h
  have hpow : limit ≤ 2 ^ (n / d).log2 := Nat.pow_le_pow_right (by decide) hexp
  have hge : limit ≤ roundUnits n d := Nat.le_trans hpow (two_pow_log2_le_roundUnits hne)
  exact dif_neg (Nat.not_lt.mpr hge)

/-- A ratio below half a unit is zero. -/
theorem ofRatio_of_two_mul_lt (h : 2 * n < d) : ofRatio negative n d = zero negative := by
  have hdiv : n / d = 0 := Nat.div_eq_of_lt (by omega)
  have hmod : n % d = n := Nat.mod_eq_of_lt (by omega)
  have hgap : d * gap 0 = d := by simp [gap]
  have hround : roundUnits n d = 0 := by
    unfold roundUnits roundHalfEven
    rw [hdiv, hgap, hdiv, hmod]
    simp [h]
  exact ofRatio_eq_finite_iff.mpr hround

theorem two_pow_le_ten_pow (k : Nat) : 2 ^ (3 * k) ≤ 10 ^ k := by
  rw [Nat.pow_mul]
  exact Nat.pow_le_pow_left (by decide) k

/-- Where the reader sees that a number has vanished, it is below half a unit. -/
theorem two_mul_numerator_lt {d : Decimal}
    (h : d.exponent + (d.digits.log2 + 1) < -overflowExponent) :
    2 * d.numerator (2 ^ unitExponent) < d.denominator := by
  unfold overflowExponent at h
  unfold Decimal.numerator Decimal.denominator
  have hnat : d.exponent.toNat = 0 := by omega
  have hlog : d.digits < 2 ^ (d.digits.log2 + 1) := Nat.lt_log2_self
  rw [hnat, Nat.pow_zero, Nat.mul_one]
  -- every decimal place takes off at least three of the binary ones
  have hexp : d.digits.log2 + 1 + (unitExponent + 1) ≤ 3 * (-d.exponent).toNat := by
    unfold unitExponent
    omega
  calc 2 * (d.digits * 2 ^ unitExponent) = d.digits * 2 ^ (unitExponent + 1) := by
        rw [Nat.pow_succ]
        ring
    _ < 2 ^ (d.digits.log2 + 1) * 2 ^ (unitExponent + 1) :=
        Nat.mul_lt_mul_of_pos_right hlog (Nat.two_pow_pos _)
    _ = 2 ^ (d.digits.log2 + 1 + (unitExponent + 1)) := (Nat.pow_add _ _ _).symm
    _ ≤ 2 ^ (3 * (-d.exponent).toNat) := Nat.pow_le_pow_right (by decide) hexp
    _ ≤ 10 ^ (-d.exponent).toNat := two_pow_le_ten_pow _

/-- Where the reader sees that a number has overflowed, it is at the limit or
    above it. -/
theorem limit_le_numerator_div {d : Decimal} (hdigits : d.digits ≠ 0)
    (h : overflowExponent < d.exponent) :
    limit ≤ d.numerator (2 ^ unitExponent) / d.denominator := by
  unfold overflowExponent at h
  unfold Decimal.numerator Decimal.denominator
  have hnat : (-d.exponent).toNat = 0 := by omega
  have hone : 1 ≤ d.digits := Nat.one_le_iff_ne_zero.mpr hdigits
  have hexp : limitExponent ≤ 3 * d.exponent.toNat + unitExponent := by
    unfold limitExponent unitExponent
    omega
  rw [hnat, Nat.pow_zero, Nat.div_one]
  calc limit ≤ 2 ^ (3 * d.exponent.toNat + unitExponent) := Nat.pow_le_pow_right (by decide) hexp
    _ = 2 ^ (3 * d.exponent.toNat) * 2 ^ unitExponent := Nat.pow_add _ _ _
    _ ≤ 10 ^ d.exponent.toNat * 2 ^ unitExponent :=
        Nat.mul_le_mul_right _ (two_pow_le_ten_pow _)
    _ = 1 * 10 ^ d.exponent.toNat * 2 ^ unitExponent := by rw [Nat.one_mul]
    _ ≤ d.digits * 10 ^ d.exponent.toNat * 2 ^ unitExponent :=
        Nat.mul_le_mul_right _ (Nat.mul_le_mul_right _ hone)

/-- The bounds of the reader do not change what is read. -/
theorem ofDecimal_eq_ofRatio (negative : Bool) (d : Decimal) :
    ofDecimal negative d = ofRatio negative (d.numerator (2 ^ unitExponent)) d.denominator := by
  unfold ofDecimal
  split
  · next hvanish =>
    symm
    apply ofRatio_of_two_mul_lt
    rcases hvanish with hzero | hsmall
    · have hnumerator : d.numerator (2 ^ unitExponent) = 0 := by
        unfold Decimal.numerator
        rw [hzero, Nat.zero_mul, Nat.zero_mul]
      rw [hnumerator]
      exact d.denominator_pos
    · exact two_mul_numerator_lt hsmall
  · next hkeep =>
    split
    · next hlarge =>
      have hdigits : d.digits ≠ 0 := fun hzero => hkeep (.inl hzero)
      exact (ofRatio_of_limit_le (limit_le_numerator_div hdigits hlarge)).symm
    · rfl

/-! ### Reading depends on the number only -/

/-- Two decimals of the same number are read alike. -/
theorem ofDecimal_of_sameNumber {d d' : Decimal} (h : d.SameNumber d') :
    ofDecimal negative d = ofDecimal negative d' := by
  have hmul : d.numerator (2 ^ unitExponent) * d'.denominator =
      d'.numerator (2 ^ unitExponent) * d.denominator := by
    unfold Decimal.SameNumber Decimal.numerator at h
    unfold Decimal.numerator
    rw [Nat.mul_one, Nat.mul_one] at h
    rw [Nat.mul_right_comm, h, Nat.mul_right_comm]
  rw [ofDecimal_eq_ofRatio, ofDecimal_eq_ofRatio]
  exact ofRatio_of_mul_eq d.denominator_pos d'.denominator_pos hmul

theorem ofDecimal_normalize (d : Decimal) : ofDecimal negative d.normalize = ofDecimal negative d :=
  ofDecimal_of_sameNumber d.sameNumber_normalize

/-- A decimal that is read as a magnitude is read as it under either sign. -/
theorem ofDecimal_of_readsBack {m : Magnitude} {d : Decimal} (h : m.ReadsBack d) :
    ofDecimal negative d = .finite negative m := by
  unfold Magnitude.ReadsBack at h
  rw [ofDecimal_eq_ofRatio] at h ⊢
  exact ofRatio_eq_finite_iff.mpr (ofRatio_eq_finite_iff.mp h)

/-! ### The digits of a magnitude -/

theorem five_pow_mul_two_pow (k : Nat) : 5 ^ k * 2 ^ k = 10 ^ k := (Nat.mul_pow 5 2 k).symm

/-- The exact expansion of a magnitude is read as this magnitude. -/
theorem ofDecimal_exactDecimal (m : Magnitude) :
    ofDecimal negative m.exactDecimal = .finite negative m := by
  have hpos : 0 < 10 ^ unitExponent := Nat.pow_pos (Nat.succ_pos 9)
  have hnumerator : m.exactDecimal.numerator (2 ^ unitExponent) = m.units * 10 ^ unitExponent := by
    calc m.exactDecimal.numerator (2 ^ unitExponent)
        = m.units * 5 ^ unitExponent * 2 ^ unitExponent := Decimal.numerator_places _ _ _
      _ = m.units * (5 ^ unitExponent * 2 ^ unitExponent) := Nat.mul_assoc _ _ _
      _ = m.units * 10 ^ unitExponent := congrArg _ (five_pow_mul_two_pow unitExponent)
  have hdenominator : m.exactDecimal.denominator = 10 ^ unitExponent :=
    Decimal.denominator_places _ _
  calc ofDecimal negative m.exactDecimal
      = ofRatio negative (m.exactDecimal.numerator (2 ^ unitExponent)) m.exactDecimal.denominator :=
        ofDecimal_eq_ofRatio negative _
    _ = ofRatio negative (m.units * 10 ^ unitExponent) (10 ^ unitExponent) :=
        congrArg₂ (ofRatio negative) hnumerator hdenominator
    _ = .finite negative m := ofRatio_units m hpos

/-- A candidate of the search for digits is read back. -/
theorem readsBack_of_candidate? {tie : Tie} {m : Magnitude} {s : Int} {d : Decimal}
    (h : m.candidate? tie s = some d) : m.ReadsBack d := by
  dsimp only [Magnitude.candidate?] at h
  generalize compare (2 * m.gridNumerator s) _ = order at h
  by_cases hlow : m.ReadsBack (m.gridFloor s)
  · rw [if_pos hlow] at h
    by_cases hhigh : m.ReadsBack ⟨(m.gridFloor s).digits + 1, s⟩
    · rw [if_pos hhigh] at h
      -- whichever neighbour is chosen, both read back
      split at h
      · cases h; exact hlow
      · cases h; exact hhigh
      · cases h; exact hhigh
      · injection h with h
        subst h
        split
        · exact hlow
        · exact hhigh
    · rw [if_neg hhigh] at h
      cases h; exact hlow
  · rw [if_neg hlow] at h
    split at h
    · next hhigh => cases h; exact hhigh
    · cases h

/-- The shortest digits of a magnitude are read as this magnitude. -/
theorem ofDecimal_shortest (tie : Tie) (m : Magnitude) :
    ofDecimal negative (m.shortest tie) = .finite negative m := by
  unfold Magnitude.shortest
  split
  · next hzero =>
    obtain ⟨units, hunits⟩ := m
    subst hzero
    simp [ofDecimal, zero]
  · -- the search finds a decimal that reads back, or the exact expansion stands in
    rw [ofDecimal_normalize]
    cases hfound : (List.range 17).findSome? fun (n : Nat) =>
        m.candidate? tie (m.decimalExponent - 1 - n) with
    | none => exact ofDecimal_exactDecimal m
    | some d =>
      obtain ⟨n, _, hcandidate⟩ := List.exists_of_findSome?_eq_some hfound
      exact ofDecimal_of_readsBack (readsBack_of_candidate? hcandidate)

end Double

end ProductSegments
