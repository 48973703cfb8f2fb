import ProductSegments.Proofs.Decimal.Grammar
import ProductSegments.Proofs.Decimal.Layout

/-! # Number text in the grammar

  The digits of a decimal, laid out with a point where it falls, are a numeral
  that denotes the decimal, whether zeros fill it up in front of the point or
  behind it. Integers are the numerals that have a sign and digits only.

  - `Numeral.denotes_positional`: what laid out digits denote.
  - `Numeral.IsInteger` is the grammar of integers, with the number of a text.
  - `Numeral.isGrammarChar_of_denotes`: which characters numerals are made of.
-/

namespace ProductSegments

namespace Numeral

variable {cs ds : List Char} {negative : Bool} {m q : ℚ}

/-! ### Laid out digits -/

theorem denotes_withSign (h : IsMantissa ds m) :
    Denotes (Decimal.withSign negative ds) negative (signedRat negative m) := by
  have hparts {sign : List Char} (hsign : IsSign sign negative) :
      Denotes (sign ++ ds) negative (signedRat negative m) := by
    simpa using Denotes.parts hsign h .absent
  cases negative with
  | true => exact hparts .minus
  | false => exact hparts .absent

theorem digitsValue_append_zeros (ds : List Char) (n : Nat) :
    digitsValue (ds ++ Decimal.zeros n) = digitsValue ds * 10 ^ n := by
  unfold digitsValue Decimal.zeros
  rw [Nat.ofDigitChars_append, Nat.ofDigitChars_replicate_zero, Nat.mul_comm]

/-- The digits of a decimal with the point where it falls are a mantissa. -/
theorem isMantissa_positional (d : Decimal) : IsMantissa d.positional d.toRat := by
  obtain ⟨digits, exponent⟩ := d
  cases exponent with
  | ofNat n =>
    -- zeros take the place of the exponent
    have hdigits : IsDigits (Nat.toDigits 10 digits ++ Decimal.zeros n) := by
      refine ⟨by simp [Nat.toDigits_ne_nil], ?_⟩
      intro c hc
      rcases List.mem_append.mp hc with hc | hc
      · exact isDigit_of_mem_toDigits hc
      · exact Decimal.isDigit_of_mem_zeros hc
    have hvalue : (digitsValue (Nat.toDigits 10 digits ++ Decimal.zeros n) : ℚ) =
        Decimal.toRat ⟨digits, .ofNat n⟩ := by
      rw [digitsValue_append_zeros, digitsValue_toDigits]
      simp [Decimal.toRat]
    rw [← hvalue]
    exact .whole hdigits
  | negSucc n =>
    obtain ⟨whole, fraction, hpositional, hwhole, hfraction, hlength, hvalue⟩ :=
      Decimal.exists_positional digits (n + 1)
    have hne : fraction ≠ [] := by
      rw [← List.length_pos_iff_ne_nil, hlength]
      exact Nat.succ_pos n
    have hrat := toRat_pointed whole fraction
    rw [hvalue, hlength] at hrat
    show IsMantissa (Decimal.positional ⟨digits, -((n + 1 : Nat) : Int)⟩)
      (Decimal.toRat ⟨digits, -((n + 1 : Nat) : Int)⟩)
    rw [hpositional, Decimal.pointed, if_neg hne, hrat, ← hlength]
    exact .pointed ⟨hwhole.nonempty, hwhole.digits⟩ hfraction

/-- A laid out decimal denotes its number, with the sign in front of it. -/
theorem denotes_positional (negative : Bool) (d : Decimal) :
    Denotes (Decimal.withSign negative d.positional) negative (signedRat negative d.toRat) :=
  denotes_withSign (isMantissa_positional d)

/-! ### Integers -/

/-- The text is a sign, which may be left out, and digits, and their number. -/
inductive IsInteger : List Char → Int → Prop where
  /-- The two parts stand one behind the other. -/
  | parts {sign ds : List Char} {negative : Bool} : IsSign sign negative → IsDigits ds →
      IsInteger (sign ++ ds) (if negative then -(digitsValue ds : Int) else digitsValue ds)

/-- An integer denotes its number, and has a sign even if this is zero. -/
theorem IsInteger.denotes {i : Int} (h : IsInteger cs i) :
    ∃ negative n, (i = if negative then -(n : Int) else n) ∧
      Denotes cs negative (signedRat negative (Decimal.toRat ⟨n, 0⟩)) := by
  obtain ⟨hsign, hds⟩ := h
  next sign ds negative =>
  refine ⟨negative, digitsValue ds, rfl, ?_⟩
  rw [Decimal.toRat_natCast]
  simpa using Denotes.parts hsign (.whole hds) .absent

/-! ### The characters of a numeral -/

/-- The characters that the grammar knows. -/
def isGrammarChar (c : Char) : Bool := isNumeralChar c || c == '.' || c == 'E'

theorem isGrammarChar_of_isDigit {c : Char} (h : c.isDigit = true) : isGrammarChar c = true := by
  simp [isGrammarChar, isNumeralChar, h]

theorem IsSign.isGrammarChar_of_mem {c : Char} (h : IsSign cs negative) (hc : c ∈ cs) :
    isGrammarChar c = true := by
  cases h with
  | absent => cases hc
  | plus =>
    rw [List.mem_singleton.mp hc]
    decide
  | minus =>
    rw [List.mem_singleton.mp hc]
    decide

theorem IsMantissa.isGrammarChar_of_mem {c : Char} (h : IsMantissa cs m) (hc : c ∈ cs) :
    isGrammarChar c = true := by
  have hpoint : isGrammarChar '.' = true := by decide
  cases h with
  | whole hds => exact isGrammarChar_of_isDigit (hds.digits c hc)
  | pointed hds hfs =>
    rcases List.mem_append.mp hc with hc | hc
    · exact isGrammarChar_of_isDigit (hds.digits c hc)
    rcases List.mem_cons.mp hc with rfl | hc
    · exact hpoint
    · exact isGrammarChar_of_isDigit (hfs c hc)
  | fraction hfs =>
    rcases List.mem_cons.mp hc with rfl | hc
    · exact hpoint
    · exact isGrammarChar_of_isDigit (hfs.digits c hc)

theorem IsExponent.isGrammarChar_of_mem {c : Char} {e : Int} (h : IsExponent cs e) (hc : c ∈ cs) :
    isGrammarChar c = true := by
  cases h with
  | absent => cases hc
  | present hmark hsign hds =>
    rcases List.mem_cons.mp hc with rfl | hc
    · rcases hmark with rfl | rfl <;> decide
    rcases List.mem_append.mp hc with hc | hc
    · exact hsign.isGrammarChar_of_mem hc
    · exact isGrammarChar_of_isDigit (hds.digits c hc)

/-- There is nothing in a numeral but digits, signs, points and marks. -/
theorem isGrammarChar_of_denotes {c : Char} (h : Denotes cs negative q) (hc : c ∈ cs) :
    isGrammarChar c = true := by
  obtain ⟨hsign, hmantissa, hexponent⟩ := h
  rcases List.mem_append.mp hc with hc | hc
  · exact hsign.isGrammarChar_of_mem hc
  rcases List.mem_append.mp hc with hc | hc
  · exact hmantissa.isGrammarChar_of_mem hc
  · exact hexponent.isGrammarChar_of_mem hc

theorem ne_nil_of_denotes (h : Denotes cs negative q) : cs ≠ [] := by
  obtain ⟨n, hread, -, -⟩ := denotes_iff.mp h
  rintro rfl
  cases hread

end Numeral

end ProductSegments
