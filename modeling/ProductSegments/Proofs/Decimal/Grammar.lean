import Mathlib.Algebra.Field.Rat
import Mathlib.Data.List.TakeWhile
import Mathlib.Tactic.FieldSimp
import ProductSegments.Proofs.Decimal.Numeral

/-! # The grammar of numerals

  A numeral is a sign, digits with a point and an exponent, of which only the
  digits have to be there. It denotes a rational number, whatever its size. The
  reader accepts exactly the numerals, and what it returns is the number that
  the text denotes.

  - `Numeral.Denotes` is the grammar, with the sign and the number of a text.
  - `Numeral.denotes_iff`: the reader against the grammar, in both directions.
  - `Numeral.Denotes.unique`: a text denotes one number at most.
-/

namespace ProductSegments

/-! ### Rational numbers -/

/-- A magnitude with a sign put on it. -/
def signedRat (negative : Bool) (a : ℚ) : ℚ := if negative then -a else a

/-- The number that a decimal denotes. -/
def Decimal.toRat (d : Decimal) : ℚ := d.digits * 10 ^ d.exponent

theorem Decimal.toRat_shift (digits : Nat) (exponent shift : Int) :
    toRat ⟨digits, exponent + shift⟩ = toRat ⟨digits, exponent⟩ * 10 ^ shift := by
  have hpow : (10 : ℚ) ^ (exponent + shift) = 10 ^ exponent * 10 ^ shift :=
    zpow_add₀ (by norm_num) exponent shift
  simp only [toRat, hpow, mul_assoc]

theorem Decimal.toRat_natCast (digits : Nat) : toRat ⟨digits, 0⟩ = digits := by
  simp [toRat]

namespace Numeral

/-- The number that a numeral denotes. -/
def toRat (n : Numeral) : ℚ := signedRat n.negative n.magnitude.toRat

/-! ### The grammar -/

/-- A sign, which is a minus or not. -/
inductive IsSign : List Char → Bool → Prop where
  /-- The sign may be left out. -/
  | absent : IsSign [] false
  /-- A plus. -/
  | plus : IsSign ['+'] false
  /-- A minus. -/
  | minus : IsSign ['-'] true

/-- Digits with at most one point among or beside them, and their number. -/
inductive IsMantissa : List Char → ℚ → Prop where
  /-- Digits alone. -/
  | whole {ds : List Char} : IsDigits ds → IsMantissa ds (digitsValue ds)
  /-- Digits and a point, with or without digits behind it. -/
  | pointed {ds fs : List Char} : IsDigits ds → (∀ c ∈ fs, c.isDigit = true) →
      IsMantissa (ds ++ '.' :: fs) (digitsValue ds + digitsValue fs / 10 ^ fs.length)
  /-- A point and digits behind it. -/
  | fraction {fs : List Char} : IsDigits fs →
      IsMantissa ('.' :: fs) (digitsValue fs / 10 ^ fs.length)

/-- A power of ten behind the digits. -/
inductive IsExponent : List Char → Int → Prop where
  /-- The exponent may be left out. -/
  | absent : IsExponent [] 0
  /-- A mark of either case, a sign and digits. -/
  | present {mark : Char} {sign ds : List Char} {negative : Bool} : mark = 'e' ∨ mark = 'E' →
      IsSign sign negative → IsDigits ds →
      IsExponent (mark :: (sign ++ ds)) (if negative then -(digitsValue ds : Int) else digitsValue ds)

/-- The text is a numeral of the given sign that denotes the given number. -/
inductive Denotes : List Char → Bool → ℚ → Prop where
  /-- The three parts of a numeral stand one behind the other. -/
  | parts {sign mantissa exponent : List Char} {negative : Bool} {m : ℚ} {e : Int} :
      IsSign sign negative → IsMantissa mantissa m → IsExponent exponent e →
      Denotes (sign ++ (mantissa ++ exponent)) negative (signedRat negative (m * 10 ^ e))

variable {cs ds fs rest sign mantissa exponent : List Char} {negative : Bool} {n : Nat} {m q : ℚ}
  {e : Int} {d : Decimal}

/-! ### Digits -/

theorem eq_append_of_splitDigits (h : splitDigits cs = (ds, rest)) :
    cs = ds ++ rest ∧ ∀ c ∈ ds, c.isDigit = true := by
  cases h
  exact ⟨List.takeWhile_append_dropWhile.symm, fun _ hc => List.mem_takeWhile_imp hc⟩

/-- Digits on both sides of a point count by their distance from it. -/
theorem toRat_pointed (ds fs : List Char) :
    Decimal.toRat ⟨digitsValue (ds ++ fs), -fs.length⟩ =
      digitsValue ds + digitsValue fs / 10 ^ fs.length := by
  have hvalue : digitsValue (ds ++ fs) = 10 ^ fs.length * digitsValue ds + digitsValue fs := by
    unfold digitsValue
    rw [Nat.ofDigitChars_append, Nat.ofDigitChars_eq_ofDigitChars_zero]
  unfold Decimal.toRat
  rw [hvalue, zpow_neg, zpow_natCast]
  push_cast
  field_simp

theorem toRat_fraction (fs : List Char) :
    Decimal.toRat ⟨digitsValue fs, -fs.length⟩ = digitsValue fs / 10 ^ fs.length := by
  have hpointed := toRat_pointed [] fs
  simpa [digitsValue] using hpointed

/-! ### Signs -/

theorem IsSign.splitSign_append (h : IsSign sign negative) (hrest : Text.Stops isSignChar rest) :
    splitSign (sign ++ rest) = (negative, rest) := by
  cases h with
  | absent => exact splitSign_of_stops hrest
  | plus => rfl
  | minus => rfl

theorem isSign_of_splitSign (h : splitSign cs = (negative, rest)) :
    ∃ sign, IsSign sign negative ∧ cs = sign ++ rest := by
  unfold splitSign at h
  -- one case for each of the three kinds of sign
  split at h
  · cases h; exact ⟨['-'], .minus, rfl⟩
  · cases h; exact ⟨['+'], .plus, rfl⟩
  · cases h; exact ⟨[], .absent, rfl⟩

theorem IsMantissa.stops_isSignChar (h : IsMantissa mantissa m) (rest : List Char) :
    Text.Stops isSignChar (mantissa ++ rest) := by
  cases h with
  | whole hds => exact hds.stops_isSignChar rest
  | pointed hds _ =>
    rw [List.append_assoc]
    exact hds.stops_isSignChar _
  | fraction _ => exact Text.stops_cons (by decide)

/-! ### Exponents -/

theorem IsExponent.readExponent_eq (h : IsExponent exponent e) :
    readExponent exponent = some e := by
  cases h with
  | absent => rfl
  | present hmark hsign hds =>
    have hsplit := hsign.splitSign_append (hds.stops_isSignChar [])
    rw [List.append_nil] at hsplit
    have hread := readDigits_eq_some_iff.mpr ⟨hds, rfl⟩
    simp only [readExponent, if_pos hmark, hsplit, hread, Option.bind_eq_bind, Option.bind_some,
      Option.pure_def, Option.map_some]

theorem isExponent_of_readExponent (h : readExponent cs = some e) : IsExponent cs e := by
  unfold readExponent at h
  split at h
  · cases h; exact .absent
  · next mark cs =>
    split at h
    · next hmark =>
      obtain ⟨negative, ds, hsplit⟩ : ∃ negative ds, splitSign cs = (negative, ds) := ⟨_, _, rfl⟩
      obtain ⟨sign, hsign, rfl⟩ := isSign_of_splitSign hsplit
      rw [hsplit] at h
      cases hread : readDigits ds with
      | none => simp [hread] at h
      | some n =>
        obtain ⟨hds, rfl⟩ := readDigits_eq_some_iff.mp hread
        simp only [hread, Option.bind_eq_bind, Option.bind_some, Option.pure_def, Option.map_some,
          Option.some.injEq] at h
        subst h
        exact .present hmark hsign hds
    · cases h

theorem IsExponent.stops_continuesMantissa (h : IsExponent exponent e) :
    Text.Stops continuesMantissa exponent := by
  cases h with
  | absent => exact Text.stops_nil
  | present hmark _ _ =>
    apply Text.stops_cons
    rcases hmark with rfl | rfl <;> decide

/-! ### Mantissas -/

theorem stops_isDigit_point (rest : List Char) : Text.Stops Char.isDigit ('.' :: rest) :=
  Text.stops_cons (by decide)

theorem readMantissa_pointed (hds : IsDigits ds) (hfs : ∀ c ∈ fs, c.isDigit = true)
    (hrest : Text.Stops Char.isDigit rest) :
    readMantissa (ds ++ '.' :: (fs ++ rest)) =
      some (⟨digitsValue (ds ++ fs), -fs.length⟩, rest) := by
  rw [readMantissa, splitDigits_append hds.digits (stops_isDigit_point _)]
  split
  · next heq => exact absurd (Prod.mk.inj heq).1 hds.nonempty
  · next heq => exact absurd (Prod.mk.inj heq).1 hds.nonempty
  · next heq =>
    obtain ⟨rfl, htail⟩ := Prod.mk.inj heq
    rw [← (List.cons.inj htail).2, splitDigits_append hfs hrest]
  · next hother heq => exact (hother _ (Prod.mk.inj heq).2.symm).elim

theorem readMantissa_fraction (hfs : IsDigits fs) (hrest : Text.Stops Char.isDigit rest) :
    readMantissa ('.' :: (fs ++ rest)) = some (⟨digitsValue fs, -fs.length⟩, rest) := by
  have hsplit : splitDigits ([] ++ '.' :: (fs ++ rest)) = ([], '.' :: (fs ++ rest)) :=
    splitDigits_append (by simp) (stops_isDigit_point _)
  rw [List.nil_append] at hsplit
  rw [readMantissa, hsplit]
  simp only [splitDigits_append hfs.digits hrest]
  split
  · next heq => exact absurd (Prod.mk.inj heq).1 hfs.nonempty
  · next heq =>
    obtain ⟨rfl, rfl⟩ := Prod.mk.inj heq
    rfl

/-- A mantissa is read as its number, whatever follows that does not go on with it. -/
theorem IsMantissa.readMantissa_append (h : IsMantissa mantissa m)
    (hrest : Text.Stops continuesMantissa rest) :
    ∃ d, readMantissa (mantissa ++ rest) = some (d, rest) ∧ d.toRat = m := by
  have hdigits := stops_isDigit_of_stops hrest
  cases h with
  | whole hds => exact ⟨_, readMantissa_whole hds hrest, Decimal.toRat_natCast _⟩
  | @pointed ds fs hds hfs =>
    rw [List.append_assoc, List.cons_append]
    exact ⟨_, readMantissa_pointed hds hfs hdigits, toRat_pointed ds fs⟩
  | @fraction fs hfs => exact ⟨_, readMantissa_fraction hfs hdigits, toRat_fraction fs⟩

/-- What is read as a mantissa is one, and nothing of the text is lost. -/
theorem isMantissa_of_readMantissa (h : readMantissa cs = some (d, rest)) :
    ∃ mantissa, cs = mantissa ++ rest ∧ IsMantissa mantissa d.toRat := by
  obtain ⟨ds, tail, hsplit⟩ : ∃ ds tail, splitDigits cs = (ds, tail) := ⟨_, _, rfl⟩
  obtain ⟨rfl, hds⟩ := eq_append_of_splitDigits hsplit
  rw [readMantissa, hsplit] at h
  split at h
  · -- no digits in front of the point
    next tail heq =>
    cases heq
    split at h
    · cases h
    · next fs behind hne hbehind =>
      obtain ⟨rfl, hfs⟩ := eq_append_of_splitDigits hbehind
      cases h
      refine ⟨'.' :: fs, rfl, ?_⟩
      rw [toRat_fraction]
      exact .fraction ⟨hne, hfs⟩
  · cases h
  · next tail hne heq =>
    cases heq
    obtain ⟨fs, behind, hbehind⟩ : ∃ fs behind, splitDigits tail = (fs, behind) := ⟨_, _, rfl⟩
    obtain ⟨rfl, hfs⟩ := eq_append_of_splitDigits hbehind
    rw [hbehind] at h
    cases h
    refine ⟨ds ++ '.' :: fs, by rw [List.append_assoc]; rfl, ?_⟩
    rw [toRat_pointed]
    exact .pointed ⟨hne, hds⟩ hfs
  · next hne _ heq =>
    -- no point behind the digits
    cases heq
    cases h
    refine ⟨ds, rfl, ?_⟩
    rw [Decimal.toRat_natCast]
    exact .whole ⟨hne, hds⟩

/-! ### Numerals -/

/-- A text denotes what the reader makes of it, and nothing else. -/
theorem denotes_iff :
    Denotes cs negative q ↔ ∃ n, read? cs = some n ∧ n.negative = negative ∧ n.toRat = q := by
  constructor
  · rintro ⟨hsign, hmantissa, hexponent⟩
    next sign mantissa exponent m e =>
    obtain ⟨d, hread, rfl⟩ := hmantissa.readMantissa_append hexponent.stops_continuesMantissa
    refine ⟨⟨negative, ⟨d.digits, d.exponent + e⟩⟩, ?_, rfl, ?_⟩
    · rw [read?, hsign.splitSign_append (hmantissa.stops_isSignChar exponent)]
      simp only [hread, hexponent.readExponent_eq, Option.bind_eq_bind, Option.bind_some,
        Option.pure_def]
    · simp only [toRat, Decimal.toRat_shift]
  · -- each reader returns what follows its part, so the parts make up the text
    rintro ⟨n, hread, rfl, rfl⟩
    obtain ⟨negative, unsigned, hsplit⟩ : ∃ negative unsigned, splitSign cs = (negative, unsigned) :=
      ⟨_, _, rfl⟩
    obtain ⟨sign, hsign, rfl⟩ := isSign_of_splitSign hsplit
    rw [read?, hsplit] at hread
    simp only [Option.bind_eq_bind, Option.bind_eq_some_iff, Option.pure_def, Option.some.injEq]
      at hread
    obtain ⟨⟨d, rest⟩, hd, e, he, rfl⟩ := hread
    obtain ⟨mantissa, rfl, hmantissa⟩ := isMantissa_of_readMantissa hd
    have hdenotes := Denotes.parts hsign hmantissa (isExponent_of_readExponent he)
    simpa only [toRat, Decimal.toRat_shift] using hdenotes

/-- A text denotes one number at most, and has one sign. -/
theorem Denotes.unique {negative' : Bool} {q' : ℚ} (h : Denotes cs negative q)
    (h' : Denotes cs negative' q') : negative = negative' ∧ q = q' := by
  obtain ⟨n, hn, rfl, rfl⟩ := denotes_iff.mp h
  obtain ⟨n', hn', rfl, rfl⟩ := denotes_iff.mp h'
  obtain rfl : n = n' := Option.some.inj (hn.symm.trans hn')
  exact ⟨rfl, rfl⟩

end Numeral

end ProductSegments
