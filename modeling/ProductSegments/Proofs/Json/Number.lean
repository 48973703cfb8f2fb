import ProductSegments.Json.Reader
import ProductSegments.Json.Text
import ProductSegments.Proofs.Decimal.Layout

/-! # JSON numbers read back

  The text of a number is a sign, digits in front of a point, digits behind it
  and an exponent, most of which may be absent. The reader takes these parts
  off one after the other, each of them ending where the next one starts.

  - `Json.NumberParts` are the parts, with what makes their text readable.
  - `Json.number?_text`: the text of the parts is read as their number.
  - `Json.exists_parts_integer` and `exists_parts_real`: every number is written
    as such parts.
-/

namespace ProductSegments

namespace Json

open Decimal (pointed)
open Numeral (IsWhole)
open Text (Stops stops_cons stops_nil)

/-! ### The parts of a number -/

/-- The text of an exponent that may be absent. -/
def exponentText (exponent? : Option Int) : List Char :=
  exponent?.elim [] fun exponent => 'e' :: Decimal.signedText exponent

/-- The character starts numbers and nothing else. -/
def StartsNumber (c : Char) : Prop := c = '-' ∨ c.isDigit = true

instance (c : Char) : Decidable (StartsNumber c) := inferInstanceAs (Decidable (_ ∨ _))

theorem StartsNumber.ne {c d : Char} (h : StartsNumber c) (hd : ¬ StartsNumber d) : c ≠ d :=
  fun hcd => hd (hcd ▸ h)

/-- The parts that a number is written with. -/
structure NumberParts where
  /-- Whether a minus sign stands in front. -/
  negative : Bool
  /-- The digits in front of the point. -/
  whole : List Char
  /-- The digits behind the point. -/
  fraction : List Char
  /-- The exponent, if there is one. -/
  exponent? : Option Int
  /-- The digits in front of the point may stand there. -/
  isWhole : IsWhole whole
  /-- There are only digits behind the point. -/
  isDigit_fraction : ∀ c ∈ fraction, c.isDigit = true

namespace NumberParts

variable (p : NumberParts)

/-- The parts one after the other. -/
def text : List Char :=
  Decimal.withSign p.negative (p.whole ++ (pointed p.fraction ++ exponentText p.exponent?))

/-- The number that the parts stand for. -/
def value : Json := ofParts p.negative p.whole p.fraction p.exponent?

theorem exists_text_eq_cons : ∃ c cs, p.text = c :: cs ∧ StartsNumber c := by
  obtain ⟨negative, whole, fraction, exponent?, hwhole, -⟩ := p
  obtain ⟨d, ds, rfl⟩ := List.exists_cons_of_ne_nil hwhole.nonempty
  cases negative with
  | true => exact ⟨'-', _, rfl, .inl rfl⟩
  | false => exact ⟨d, _, rfl, .inr (hwhole.digits d List.mem_cons_self)⟩

end NumberParts

/-! ### Reading the parts -/

variable {whole fraction rest : List Char}

theorem readWhole_append (hwhole : IsWhole whole) (hrest : Stops Char.isDigit rest) :
    readWhole (whole ++ rest) = some (whole, rest) := by
  unfold readWhole
  rw [Numeral.splitDigits_append hwhole.digits hrest]
  obtain ⟨d, ds, rfl⟩ := List.exists_cons_of_ne_nil hwhole.nonempty
  by_cases hzero : d = '0'
  · -- a leading zero is the only digit
    subst hzero
    obtain rfl : ds = [] := (List.cons.inj (hwhole.leading rfl)).2
    rfl
  · simp [hzero]

theorem readFraction_pointed (hfraction : ∀ c ∈ fraction, c.isDigit = true)
    (hrest : Stops Char.isDigit rest) (hpoint : rest.head? ≠ some '.') :
    readFraction (pointed fraction ++ rest) = some (fraction, rest) := by
  unfold pointed
  split
  · next hnil =>
    rw [hnil, List.nil_append, readFraction]
    rintro cs rfl
    exact hpoint rfl
  · next hne =>
    obtain ⟨d, ds, rfl⟩ := List.exists_cons_of_ne_nil hne
    rw [List.cons_append, readFraction, Numeral.splitDigits_append hfraction hrest]

theorem readExponent_exponentText (exponent? : Option Int) :
    readExponent (exponentText exponent?) = some (exponent?, []) := by
  cases exponent? with
  | none => rfl
  | some i =>
    have hsplit := Numeral.splitDigits_toDigits i.natAbs
    have hvalue := Numeral.digitsValue_toDigits i.natAbs
    obtain ⟨d, ds, hds⟩ :=
      List.exists_cons_of_ne_nil (Nat.toDigits_ne_nil (b := 10) (n := i.natAbs))
    rw [hds] at hsplit hvalue
    show readExponent ('e' :: Decimal.signedText i) = _
    simp only [readExponent, true_or, if_true, Numeral.splitSign_signedText, hds, hsplit, hvalue,
      decide_eq_true_eq, Numeral.signed_natAbs]

/-- An exponent starts with its letter. -/
theorem stops_exponentText {p : Char → Bool} (h : p 'e' = false) (exponent? : Option Int) :
    Stops p (exponentText exponent?) := by
  cases exponent? with
  | none => exact stops_nil
  | some _ => exact stops_cons h

/-- What follows the digits in front of the point is a point or an exponent. -/
theorem stops_pointed_append (fraction : List Char) (exponent? : Option Int) :
    Stops Char.isDigit (pointed fraction ++ exponentText exponent?) := by
  unfold pointed
  split
  · exact stops_exponentText (by decide) exponent?
  · exact stops_cons (by decide)

/-- A sign is read off in front of the parts. -/
theorem number?_withSign (negative : Bool) {cs : List Char} (hcs : cs.head? ≠ some '-') :
    number? (Decimal.withSign negative cs) = (do
      let (whole, cs) ← readWhole cs
      let (fraction, cs) ← readFraction cs
      let (exponent?, cs) ← readExponent cs
      if cs = [] then some (ofParts negative whole fraction exponent?) else none) := by
  cases negative with
  | true => rfl
  | false =>
    have hsign : (cs.head? == some '-') = false := by simpa using hcs
    simp only [number?, Decimal.withSign, hsign, Bool.false_eq_true, if_false]

/-- The text of parts is read as the number that they stand for. -/
theorem number?_text (p : NumberParts) : number? p.text = some p.value := by
  obtain ⟨negative, whole, fraction, exponent?, hwhole, hfraction⟩ := p
  have hhead : (whole ++ (pointed fraction ++ exponentText exponent?)).head? ≠ some '-' := by
    obtain ⟨d, ds, rfl⟩ := List.exists_cons_of_ne_nil hwhole.nonempty
    intro hminus
    have hd := hwhole.digits d List.mem_cons_self
    rw [Option.some.inj hminus] at hd
    exact absurd hd (by decide)
  have hexponent := stops_exponentText (p := Char.isDigit) (by decide) exponent?
  have hpoint : (exponentText exponent?).head? ≠ some '.' := by
    cases exponent? <;> simp [exponentText]
  show number? (Decimal.withSign negative _) = _
  rw [number?_withSign negative hhead,
    readWhole_append hwhole (stops_pointed_append fraction exponent?)]
  simp only [Option.bind_eq_bind, Option.bind_some, if_true,
    readFraction_pointed hfraction hexponent hpoint, readExponent_exponentText]
  rfl

/-! ### The characters of a number -/

theorem isNumberSymbol_of_isDigit {c : Char} (h : c.isDigit = true) :
    isNumberSymbol (some c) = true := by
  simp [isNumberSymbol, h]

theorem isNumberSymbol_of_mem_exponentText {exponent? : Option Int} {c : Char}
    (h : c ∈ exponentText exponent?) : isNumberSymbol (some c) = true := by
  cases exponent? with
  | none => exact absurd h List.not_mem_nil
  | some i =>
    rcases List.mem_cons.mp h with rfl | hc
    · decide
    rcases Numeral.eq_or_isDigit_of_mem_signedText hc with rfl | rfl | hc
    · decide
    · decide
    · exact isNumberSymbol_of_isDigit hc

theorem isNumberSymbol_of_mem_pointed {c : Char} (hfraction : ∀ d ∈ fraction, d.isDigit = true)
    (h : c ∈ pointed fraction) : isNumberSymbol (some c) = true := by
  unfold pointed at h
  split at h
  · exact absurd h List.not_mem_nil
  rcases List.mem_cons.mp h with rfl | hc
  · decide
  · exact isNumberSymbol_of_isDigit (hfraction c hc)

theorem isNumberSymbol_of_mem_text {p : NumberParts} {c : Char} (h : c ∈ p.text) :
    isNumberSymbol (some c) = true := by
  rcases Numeral.eq_or_mem_of_mem_withSign h with rfl | hc
  · decide
  rcases List.mem_append.mp hc with hc | hc
  · exact isNumberSymbol_of_isDigit (p.isWhole.digits c hc)
  rcases List.mem_append.mp hc with hc | hc
  · exact isNumberSymbol_of_mem_pointed p.isDigit_fraction hc
  · exact isNumberSymbol_of_mem_exponentText hc

/-- The parts are taken off in front of anything else. -/
theorem readNumber_text (p : NumberParts) {rest : List Text.Symbol}
    (hrest : Stops isNumberSymbol rest) :
    readNumber (p.text.map some ++ rest) = some (p.value, rest) := by
  have hrow : ∀ s ∈ p.text.map some, isNumberSymbol s = true := by
    intro s hs
    obtain ⟨c, hc, rfl⟩ := List.mem_map.mp hs
    exact isNumberSymbol_of_mem_text hc
  have hword : (p.text.map some).filterMap id = p.text := by simp
  unfold readNumber
  rw [Text.takeWhile_append_of_stops hrow hrest, Text.dropWhile_append_of_stops hrow hrest, hword,
    number?_text, Option.map_some]

/-! ### The parts that numbers are written with -/

/-- An integer is written with digits only. -/
theorem exists_parts_integer (negative : Bool) (n : Nat) :
    ∃ p : NumberParts, write (.integer negative n) = p.text ∧ p.value = .integer negative n := by
  refine ⟨⟨negative, Nat.toDigits 10 n, [], none, Numeral.isWhole_toDigits n, by simp⟩, ?_, ?_⟩
  · simp [NumberParts.text, write, pointed, exponentText]
  · show ofParts negative (Nat.toDigits 10 n) [] none = _
    rw [ofParts, dif_neg (by simp), Numeral.digitsValue_toDigits]

/-- A real number is written with a digit behind the point for each of its places. -/
theorem exists_parts_real (n : Real) :
    ∃ p : NumberParts, write (.real n) = p.text ∧ p.value = .real n := by
  obtain ⟨negative, digits, places, exponent?, hplaces⟩ := n
  obtain ⟨whole, fraction, htext, hwhole, hfraction, hlength, hvalue⟩ :=
    Decimal.exists_positional digits places
  refine ⟨⟨negative, whole, fraction, exponent?, hwhole, hfraction⟩, ?_, ?_⟩
  · simp only [write, Real.text, NumberParts.text, htext, List.append_assoc]
    rfl
  · show ofParts negative whole fraction exponent? = _
    subst hlength
    rw [ofParts, dif_pos hplaces]
    simp only [hvalue]

/-! ### Doubles -/

/-- The number text that is written for a double is read as the same double. -/
def KeepsNumber (x : Double) : Prop := (number? (ofDouble x).write).bind toDouble? = some x

instance (x : Double) : Decidable (KeepsNumber x) := inferInstanceAs (Decidable (_ = _))

/-- The text of a finite double is read as the digits that were selected for it. -/
theorem number?_write_ofDouble {x : Double} (h : x.isFinite = true) :
    number? (ofDouble x).write = some (ofDouble x) := by
  cases x with
  | nan => exact absurd h (by decide)
  | infinite negative => exact absurd h (by cases negative <;> decide)
  | finite negative m =>
    obtain ⟨p, htext, hvalue⟩ := exists_parts_real (.ofDecimal negative (m.shortest .even))
    show number? (write (.real _)) = some (.real _)
    rw [htext, number?_text, hvalue]

theorem KeepsNumber.toDouble?_ofDouble {x : Double} (h : KeepsNumber x) (hx : x.isFinite = true) :
    toDouble? (ofDouble x) = some x := by
  rw [KeepsNumber, number?_write_ofDouble hx, Option.bind_some] at h
  exact h

theorem isFinite_of_toDouble? {j : Json} {x : Double} (h : toDouble? j = some x) :
    x.isFinite = true := by
  cases j with
  | integer negative n =>
    rw [toDouble?] at h
    exact (Option.filter_eq_some_iff.mp h).2
  | real n =>
    rw [toDouble?] at h
    exact (Option.filter_eq_some_iff.mp h).2
  | _ => cases h

end Json

end ProductSegments
