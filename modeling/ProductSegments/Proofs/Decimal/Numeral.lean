import ProductSegments.Decimal.Basic
import ProductSegments.Decimal.Numeral
import ProductSegments.Proofs.Text.Span

/-! # Writing numerals

  Every numeral has a text that is read back as this numeral: its digits and,
  behind an `e`, its exponent with a sign.

  - `Numeral.IsDigits` are rows of digits, which both readers and writers are about.
  - `Numeral.scientific` is the text of a numeral.
  - `Numeral.read?_scientific` reads it back.
  - `Numeral.isNumeralChar_of_mem_scientific`: which characters it is made of.
-/

namespace ProductSegments

namespace Numeral

variable {cs ds rest : List Char}

/-- The text of a numeral with its digits in front of an exponent. -/
def scientific (n : Numeral) : List Char :=
  Decimal.withSign n.negative
    (Nat.toDigits 10 n.magnitude.digits ++ 'e' :: Decimal.signedText n.magnitude.exponent)

/-! ### Digits -/

/-- There are ten digits, so what is to be shown of a digit can be decided. -/
theorem exists_eq_of_isDigit {c : Char} (h : c.isDigit = true) :
    ∃ k < 10, c = Char.ofNat (48 + k) := by
  have hrange : 48 ≤ c.toNat ∧ c.toNat ≤ 57 := by
    simp only [Char.isDigit, UInt32.le_iff_toNat_le, Bool.and_eq_true, decide_eq_true_eq] at h
    exact h
  refine ⟨c.toNat - 48, by omega, ?_⟩
  rw [Nat.add_sub_cancel' hrange.1, Char.ofNat_toNat]

theorem isDigit_of_mem_toDigits {n : Nat} {c : Char} (h : c ∈ Nat.toDigits 10 n) :
    c.isDigit = true :=
  Nat.isDigit_of_mem_toDigits (by decide) (by decide) h

theorem digitsValue_toDigits (n : Nat) : digitsValue (Nat.toDigits 10 n) = n :=
  Nat.ofDigitChars_ten_toDigits

/-- A row of digits with at least one of them. -/
structure IsDigits (ds : List Char) : Prop where
  /-- There is a digit. -/
  nonempty : ds ≠ []
  /-- There is nothing else. -/
  digits : ∀ c ∈ ds, c.isDigit = true

theorem isDigits_toDigits (n : Nat) : IsDigits (Nat.toDigits 10 n) :=
  ⟨Nat.toDigits_ne_nil, fun _ hc => isDigit_of_mem_toDigits hc⟩

theorem readDigits_eq_some_iff {n : Nat} :
    readDigits ds = some n ↔ IsDigits ds ∧ digitsValue ds = n := by
  unfold readDigits
  by_cases h : ds ≠ [] ∧ ds.all Char.isDigit
  · have hdigits : IsDigits ds := ⟨h.1, List.all_eq_true.mp h.2⟩
    simp [h, hdigits]
  · have hdigits : ¬ IsDigits ds := fun hds => h ⟨hds.nonempty, List.all_eq_true.mpr hds.digits⟩
    simp only [if_neg h, hdigits, false_and, reduceCtorEq]

theorem readDigits_toDigits (n : Nat) : readDigits (Nat.toDigits 10 n) = some n :=
  readDigits_eq_some_iff.mpr ⟨isDigits_toDigits n, digitsValue_toDigits n⟩

/-- A row of digits is split off as a whole in front of what is no digit. -/
theorem splitDigits_append {ds rest : List Char} (hds : ∀ c ∈ ds, c.isDigit = true)
    (hrest : Text.Stops Char.isDigit rest) : splitDigits (ds ++ rest) = (ds, rest) := by
  unfold splitDigits
  rw [Text.takeWhile_append_of_stops hds hrest, Text.dropWhile_append_of_stops hds hrest]

theorem splitDigits_toDigits (n : Nat) :
    splitDigits (Nat.toDigits 10 n) = (Nat.toDigits 10 n, []) := by
  have happend := splitDigits_append (fun _ hd => isDigit_of_mem_toDigits (n := n) hd)
    (Text.stops_nil (p := Char.isDigit))
  rwa [List.append_nil] at happend

/-! ### Signs -/

/-- The characters of signs. -/
def isSignChar (c : Char) : Bool := c == '+' || c == '-'

theorem splitSign_of_stops (h : Text.Stops isSignChar cs) : splitSign cs = (false, cs) := by
  cases cs with
  | nil => rfl
  | cons c cs =>
    have hc : isSignChar c = false := h c rfl
    simp only [isSignChar, Bool.or_eq_false_iff, beq_eq_false_iff_ne] at hc
    rw [splitSign]
    · intro cs h
      exact hc.2 (List.cons.inj h).1
    · intro cs h
      exact hc.1 (List.cons.inj h).1

/-- A digit is no sign. -/
theorem isSignChar_of_isDigit {c : Char} (h : c.isDigit = true) : isSignChar c = false := by
  obtain ⟨k, hk, rfl⟩ := exists_eq_of_isDigit h
  revert k
  decide

theorem IsDigits.stops_isSignChar (h : IsDigits ds) (rest : List Char) :
    Text.Stops isSignChar (ds ++ rest) := by
  obtain ⟨hne, hdigits⟩ := h
  cases ds with
  | nil => exact absurd rfl hne
  | cons d ds => exact Text.stops_cons (isSignChar_of_isDigit (hdigits d List.mem_cons_self))

theorem splitSign_toDigits_append (n : Nat) (rest : List Char) :
    splitSign (Nat.toDigits 10 n ++ rest) = (false, Nat.toDigits 10 n ++ rest) :=
  splitSign_of_stops ((isDigits_toDigits n).stops_isSignChar rest)

theorem splitSign_withSign (negative : Bool) (n : Nat) (rest : List Char) :
    splitSign (Decimal.withSign negative (Nat.toDigits 10 n ++ rest)) =
      (negative, Nat.toDigits 10 n ++ rest) := by
  cases negative with
  | true => rfl
  | false => exact splitSign_toDigits_append n rest

theorem splitSign_signedText (i : Int) :
    splitSign (Decimal.signedText i) = (decide (i < 0), Nat.toDigits 10 i.natAbs) := by
  unfold Decimal.signedText
  by_cases hi : i < 0 <;> simp [hi, splitSign]

/-- The sign and the digits of an integer make it up again. -/
theorem signed_natAbs (i : Int) : (if i < 0 then -(i.natAbs : Int) else i.natAbs) = i := by
  split <;> omega

theorem eq_or_mem_of_mem_withSign {negative : Bool} {text : List Char} {c : Char}
    (h : c ∈ Decimal.withSign negative text) : c = '-' ∨ c ∈ text := by
  cases negative with
  | true => exact List.mem_cons.mp h
  | false => exact .inr h

theorem eq_or_isDigit_of_mem_signedText {i : Int} {c : Char} (h : c ∈ Decimal.signedText i) :
    c = '-' ∨ c = '+' ∨ c.isDigit = true := by
  rcases List.mem_cons.mp h with hc | hc
  · by_cases hi : i < 0
    · exact .inl (by rw [hc, if_pos hi])
    · exact .inr (.inl (by rw [hc, if_neg hi]))
  · exact .inr (.inr (isDigit_of_mem_toDigits hc))

/-! ### Reading back -/

/-- The characters that would go on with a mantissa. -/
def continuesMantissa (c : Char) : Bool := c.isDigit || c == '.'

theorem stops_isDigit_of_stops (h : Text.Stops continuesMantissa rest) :
    Text.Stops Char.isDigit rest := by
  intro c hc
  exact (Bool.or_eq_false_iff.mp (h c hc)).1

/-- Digits without a point behind them are read as a whole number. -/
theorem readMantissa_whole (hds : IsDigits ds) (hrest : Text.Stops continuesMantissa rest) :
    readMantissa (ds ++ rest) = some (⟨digitsValue ds, 0⟩, rest) := by
  have hpoint : ∀ tail, rest ≠ '.' :: tail := by
    rintro tail rfl
    exact absurd (hrest '.' rfl) (by decide)
  rw [readMantissa, splitDigits_append hds.digits (stops_isDigit_of_stops hrest)]
  split
  · next heq => exact absurd (Prod.mk.inj heq).2 (hpoint _)
  · next heq => exact absurd (Prod.mk.inj heq).1 hds.nonempty
  · next heq => exact absurd (Prod.mk.inj heq).2 (hpoint _)
  · next heq =>
    obtain ⟨rfl, rfl⟩ := Prod.mk.inj heq
    rfl

theorem readMantissa_toDigits (n : Nat) (rest : List Char) :
    readMantissa (Nat.toDigits 10 n ++ 'e' :: rest) = some (⟨n, 0⟩, 'e' :: rest) := by
  rw [readMantissa_whole (isDigits_toDigits n) (Text.stops_cons (by decide)), digitsValue_toDigits]

theorem readExponent_signedText (i : Int) :
    readExponent ('e' :: Decimal.signedText i) = some i := by
  simp only [readExponent, true_or, if_true, splitSign_signedText, readDigits_toDigits,
    Option.bind_eq_bind, Option.bind_some, Option.pure_def, Option.map_some, decide_eq_true_eq,
    signed_natAbs]

/-- The text of a numeral is read as this numeral. -/
theorem read?_scientific (n : Numeral) : read? n.scientific = some n := by
  obtain ⟨negative, digits, exponent⟩ := n
  unfold read? scientific
  rw [splitSign_withSign]
  simp only [readMantissa_toDigits, readExponent_signedText, Option.bind_eq_bind,
    Option.bind_some, Int.zero_add]
  rfl

/-! ### The characters of a numeral -/

/-- The characters that numerals are written with. -/
def isNumeralChar (c : Char) : Bool := c.isDigit || c == 'e' || c == '+' || c == '-'

theorem isNumeralChar_of_mem_scientific {n : Numeral} {c : Char} (h : c ∈ n.scientific) :
    isNumeralChar c = true := by
  have hdigit : c.isDigit = true → isNumeralChar c = true := by
    intro hc
    simp [isNumeralChar, hc]
  rcases eq_or_mem_of_mem_withSign h with rfl | hc
  · decide
  rcases List.mem_append.mp hc with hc | hc
  · exact hdigit (isDigit_of_mem_toDigits hc)
  rcases List.mem_cons.mp hc with rfl | hc
  · decide
  rcases eq_or_isDigit_of_mem_signedText hc with rfl | rfl | hc
  · decide
  · decide
  · exact hdigit hc

theorem scientific_ne_nil (n : Numeral) : n.scientific ≠ [] := by
  unfold scientific Decimal.withSign
  split <;> simp

end Numeral

end ProductSegments
