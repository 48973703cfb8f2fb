import ProductSegments.Proofs.Decimal.Numeral

/-! # The digits of number text

  Number text is laid out from the digits of natural numbers. Zeros in front of
  digits do not change their value, so a number is read back from a row of any
  width, and from the digits on both sides of a point.

  - `Decimal.digitsValue_padded` and `length_padded`: numbers of a given width.
  - `Numeral.IsWhole` are the digits that may stand in front of a point.
  - `Decimal.exists_positional`: a decimal is written as such digits and as many
    behind the point as it has places.
-/

namespace ProductSegments

namespace Numeral

/-! ### Leading digits -/

theorem digitsValue_zeros_append (n : Nat) (ds : List Char) :
    digitsValue (Decimal.zeros n ++ ds) = digitsValue ds := by
  unfold digitsValue Decimal.zeros
  rw [Nat.ofDigitChars_append, Nat.ofDigitChars_replicate_zero, Nat.mul_zero]

/-- Only zero is written with a zero in front. -/
theorem head?_toDigits_ne {n : Nat} (h : n ≠ 0) : (Nat.toDigits 10 n).head? ≠ some '0' := by
  induction n using Nat.strongRecOn with
  | ind n ih =>
    by_cases hlt : n < 10
    · have hdigits : ∀ k < 10, k ≠ 0 → some (Nat.digitChar k) ≠ some '0' := by decide
      rw [Nat.toDigits_of_lt_base hlt]
      exact hdigits n hlt h
    · -- the first digit of a longer number is that of its tenth
      have hdiv : n / 10 ≠ 0 := by omega
      rw [Nat.toDigits_of_base_le (by decide) (by omega),
        List.head?_append_of_ne_nil _ Nat.toDigits_ne_nil]
      exact ih (n / 10) (by omega) hdiv

/-- Digits as they stand in front of a point: at least one, and no zero in front
    of others. -/
structure IsWhole (ds : List Char) : Prop where
  /-- There is a digit. -/
  nonempty : ds ≠ []
  /-- There is nothing else. -/
  digits : ∀ c ∈ ds, c.isDigit = true
  /-- A leading zero stands alone. -/
  leading : ds.head? = some '0' → ds = ['0']

theorem isWhole_zero : IsWhole ['0'] := by
  refine ⟨List.cons_ne_nil _ _, fun c hc => ?_, fun _ => rfl⟩
  rw [List.mem_singleton.mp hc]
  rfl

theorem isWhole_toDigits (n : Nat) : IsWhole (Nat.toDigits 10 n) := by
  refine ⟨Nat.toDigits_ne_nil, fun _ hc => isDigit_of_mem_toDigits hc, fun hzero => ?_⟩
  by_cases hn : n = 0
  · rw [hn, Nat.toDigits_zero]
  · exact absurd hzero (head?_toDigits_ne hn)

/-- Digits cut off behind a first one may stand in front of a point, unless that
    one is the zero. -/
theorem IsWhole.take {ds : List Char} {n : Nat} (h : IsWhole ds) (hn : 0 < n)
    (hlong : n < ds.length) : IsWhole (ds.take n) := by
  have hhead : (ds.take n).head? = ds.head? := by
    rw [List.head?_take, if_neg (by omega)]
  refine ⟨?_, fun c hc => h.digits c (List.mem_of_mem_take hc), fun hzero => ?_⟩
  · rw [← List.length_pos_iff_ne_nil, List.length_take]
    omega
  · -- a longer row of digits does not start with a zero
    have hlone := h.leading (hhead ▸ hzero)
    rw [hlone] at hlong
    simp only [List.length_cons, List.length_nil] at hlong
    omega

end Numeral

namespace Decimal

open Numeral (digitsValue IsWhole)

/-! ### Numbers of a given width -/

theorem isDigit_of_mem_zeros {n : Nat} {c : Char} (h : c ∈ zeros n) : c.isDigit = true := by
  rw [List.eq_of_mem_replicate h]
  decide

theorem isDigit_of_mem_padded {width n : Nat} {c : Char} (h : c ∈ padded width n) :
    c.isDigit = true := by
  rcases List.mem_append.mp h with hc | hc
  · exact isDigit_of_mem_zeros hc
  · exact Numeral.isDigit_of_mem_toDigits hc

theorem digitsValue_padded (width n : Nat) : digitsValue (padded width n) = n := by
  unfold padded
  rw [Numeral.digitsValue_zeros_append, Numeral.digitsValue_toDigits]

theorem length_padded {width n : Nat} (hwidth : 0 < width) (h : n < 10 ^ width) :
    (padded width n).length = width := by
  have hle : (Nat.toDigits 10 n).length ≤ width :=
    (Nat.length_toDigits_le_iff (by decide) hwidth).mpr h
  simp only [padded, zeros, List.length_append, List.length_replicate]
  omega

theorem padded_ne_nil (width n : Nat) : padded width n ≠ [] := by
  simp [padded, Nat.toDigits_ne_nil]

/-! ### Digits around a point -/

/-- The point and the digits behind it, if there are any. -/
def pointed (fraction : List Char) : List Char := if fraction = [] then [] else '.' :: fraction

/-- A decimal with places is written as digits in front of a point and one digit
    behind it for each place, which together are its digits. -/
theorem exists_positional (digits places : Nat) :
    ∃ whole fraction, positional ⟨digits, -(places : Int)⟩ = whole ++ pointed fraction ∧
      IsWhole whole ∧ (∀ c ∈ fraction, c.isDigit = true) ∧ fraction.length = places ∧
      digitsValue (whole ++ fraction) = digits := by
  have hds := Numeral.isWhole_toDigits digits
  have hvalue := Numeral.digitsValue_toDigits digits
  cases places with
  | zero =>
    refine ⟨Nat.toDigits 10 digits, [], ?_, hds, by simp, rfl, ?_⟩
    · show Nat.toDigits 10 digits ++ zeros 0 = _
      simp [zeros, pointed]
    · rw [List.append_nil, hvalue]
  | succ k =>
    have hpositional : positional ⟨digits, -((k + 1 : Nat) : Int)⟩ =
        pointAfter ((Nat.toDigits 10 digits).length - (k + 1))
          (zeros (k + 1 - (Nat.toDigits 10 digits).length) ++ Nat.toDigits 10 digits) := rfl
    rw [hpositional]
    generalize Nat.toDigits 10 digits = ds at hds hvalue ⊢
    by_cases hshort : ds.length ≤ k + 1
    · -- all digits stand behind the point, after zeros that make up the places
      refine ⟨['0'], zeros (k + 1 - ds.length) ++ ds, ?_, Numeral.isWhole_zero, ?_, ?_, ?_⟩
      · have hne : zeros (k + 1 - ds.length) ++ ds ≠ [] := by simp [hds.nonempty]
        rw [pointAfter, if_pos (by omega), pointed, if_neg hne]
        rfl
      · intro c hc
        rcases List.mem_append.mp hc with hc | hc
        · exact isDigit_of_mem_zeros hc
        · exact hds.digits c hc
      · simp only [zeros, List.length_append, List.length_replicate]
        omega
      · have hzeros : ['0'] ++ (zeros (k + 1 - ds.length) ++ ds) =
            zeros (k + 1 - ds.length + 1) ++ ds := by
          simp [zeros, List.replicate_succ]
        rw [hzeros, Numeral.digitsValue_zeros_append, hvalue]
    · -- the digits themselves are cut in two, a first one staying in front
      have hfill : zeros (k + 1 - ds.length) ++ ds = ds := by
        rw [Nat.sub_eq_zero_of_le (by omega)]
        rfl
      have hcut : (ds.drop (ds.length - (k + 1))).length = k + 1 := by
        rw [List.length_drop]
        omega
      refine ⟨ds.take (ds.length - (k + 1)), ds.drop (ds.length - (k + 1)), ?_, ?_, ?_, hcut, ?_⟩
      · have hne : ds.drop (ds.length - (k + 1)) ≠ [] := by
          rw [← List.length_pos_iff_ne_nil, hcut]
          omega
        rw [hfill, pointAfter, if_neg (by omega), pointed, if_neg hne]
      · exact hds.take (by omega) (by omega)
      · exact fun c hc => hds.digits c (List.mem_of_mem_drop hc)
      · rw [List.take_append_drop, hvalue]

end Decimal

end ProductSegments
