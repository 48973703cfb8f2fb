import ProductSegments.Proofs.Double.Nearest
import ProductSegments.Rule.Check

/-! # What literals stand for

  A literal stands for a truth value, for a number or for itself. It stands for
  a number when it denotes one that is not too large, and then for the
  double-precision value nearest to it.

  - `Rule.DenotesFinite` says which texts are read as numbers.
  - `Rule.numberLiteral?_eq_some_iff`: which number a text is read as.
  - `Rule.coerce_eq_iff`: the three kinds of values, each in both directions.
-/

namespace ProductSegments

namespace Rule

variable {cs : List Char} {s t : String} {b : Bool} {x : Double}

/-! ### Numbers -/

/-- The text denotes a number that does not overflow. -/
def DenotesFinite (cs : List Char) : Prop :=
  ∃ negative q, Numeral.Denotes cs negative q ∧ |q| < Double.overflowBound

theorem numberLiteral?_eq_some_iff :
    numberLiteral? cs = some x ↔
      ∃ negative m q, x = .finite negative m ∧ Numeral.Denotes cs negative q ∧
        |q| < Double.overflowBound ∧ x.NearestTo q := by
  unfold numberLiteral?
  rw [Option.filter_eq_some_iff, Option.map_eq_some_iff]
  constructor
  · rintro ⟨⟨n, hread, rfl⟩, hfinite⟩
    obtain ⟨negative, m, hx⟩ := Double.isFinite_iff.mp hfinite
    obtain ⟨hsign, hlt, hnear⟩ := Double.ofNumeral_eq_finite_iff.mp hx
    rw [hx]
    exact ⟨negative, m, n.toRat, rfl, Numeral.denotes_iff.mpr ⟨n, hread, hsign, rfl⟩, hlt, hnear⟩
  · rintro ⟨negative, m, q, rfl, hdenotes, hlt, hnear⟩
    obtain ⟨n, hread, hsign, rfl⟩ := Numeral.denotes_iff.mp hdenotes
    exact ⟨⟨n, hread, Double.ofNumeral_eq_finite_iff.mpr ⟨hsign, hlt, hnear⟩⟩, rfl⟩

theorem numberLiteral?_eq_none_iff : numberLiteral? cs = none ↔ ¬ DenotesFinite cs := by
  rw [← not_iff_not, not_not, ← ne_eq, Option.ne_none_iff_exists']
  constructor
  · rintro ⟨x, hx⟩
    obtain ⟨negative, _, q, _, hdenotes, hlt, _⟩ := numberLiteral?_eq_some_iff.mp hx
    exact ⟨negative, q, hdenotes, hlt⟩
  · -- below the bound there is a value to be read
    rintro ⟨negative, q, hdenotes, hlt⟩
    obtain ⟨n, hread, _, rfl⟩ := Numeral.denotes_iff.mp hdenotes
    refine ⟨Double.ofNumeral n, ?_⟩
    unfold numberLiteral?
    rw [hread, Option.map_some, Option.filter_some, if_pos (Double.isFinite_ofNumeral_iff.mpr hlt)]

/-! ### Truth values -/

/-- The text of a truth value. -/
def booleanText (b : Bool) : String := if b then "true" else "false"

/-- The text of a truth value denotes no number. -/
theorem numberLiteral?_booleanText (b : Bool) : numberLiteral? (booleanText b).toList = none := by
  cases b <;> rfl

theorem coerce_of_trimmed_eq (h : Text.trimmed s = booleanText b) : coerce s = .boolean b := by
  unfold coerce
  rw [h]
  cases b <;> rfl

/-- Every other text is tried as a number, and stands for itself if it is none. -/
theorem coerce_of_trimmed_ne (h : ∀ b, Text.trimmed s ≠ booleanText b) :
    coerce s = ((numberLiteral? (Text.trim s.toList)).map Value.number).getD
      (.string (Text.trimmed s)) := by
  have htrue : Text.trimmed s ≠ "true" := h true
  have hfalse : Text.trimmed s ≠ "false" := h false
  simp only [coerce, if_neg htrue, if_neg hfalse, Text.toList_trimmed]
  cases numberLiteral? (Text.trim s.toList) with
  | some x => rfl
  | none => rfl

/-! ### The three kinds of values -/

theorem coerce_eq_boolean_iff : coerce s = .boolean b ↔ Text.trimmed s = booleanText b := by
  constructor
  · intro h
    by_cases hboolean : ∃ b', Text.trimmed s = booleanText b'
    · obtain ⟨b', hb'⟩ := hboolean
      rw [coerce_of_trimmed_eq hb'] at h
      injection h with h
      rw [hb', h]
    · rw [coerce_of_trimmed_ne (not_exists.mp hboolean)] at h
      cases hnumber : numberLiteral? (Text.trim s.toList) <;> simp [hnumber] at h
  · exact coerce_of_trimmed_eq

theorem coerce_eq_number_iff :
    coerce s = .number x ↔ numberLiteral? (Text.trim s.toList) = some x := by
  by_cases hboolean : ∃ b, Text.trimmed s = booleanText b
  · obtain ⟨b, hb⟩ := hboolean
    -- neither of the two texts is a numeral, so the order of the attempts does not matter
    have hnone := numberLiteral?_booleanText b
    rw [← hb, Text.toList_trimmed] at hnone
    rw [coerce_of_trimmed_eq hb, hnone]
    simp
  · rw [coerce_of_trimmed_ne (not_exists.mp hboolean)]
    cases numberLiteral? (Text.trim s.toList) <;> simp

theorem coerce_eq_string_iff :
    coerce s = .string t ↔
      t = Text.trimmed s ∧ (∀ b, t ≠ booleanText b) ∧
        numberLiteral? (Text.trim s.toList) = none := by
  by_cases hboolean : ∃ b, Text.trimmed s = booleanText b
  · obtain ⟨b, hb⟩ := hboolean
    rw [coerce_of_trimmed_eq hb]
    constructor
    · intro h
      contradiction
    · rintro ⟨rfl, hne, _⟩
      exact absurd hb (hne b)
  · have hne : ∀ b, Text.trimmed s ≠ booleanText b := not_exists.mp hboolean
    rw [coerce_of_trimmed_ne hne]
    cases numberLiteral? (Text.trim s.toList) with
    | some x => simp
    | none =>
      constructor
      · intro h
        obtain rfl : Text.trimmed s = t := Value.string.inj h
        exact ⟨rfl, hne, rfl⟩
      · rintro ⟨rfl, _, _⟩
        rfl

/-- A literal stands for a truth value if it is the text of one, for a number if it denotes one
    below the bound, and this is then the nearest value, and in every other case for itself, blanks
    around it put aside. -/
theorem coerce_eq_iff (s : String) :
    (∀ b, coerce s = .boolean b ↔ Text.trimmed s = booleanText b) ∧
      (∀ x, coerce s = .number x ↔
        ∃ negative m q, x = .finite negative m ∧
          Numeral.Denotes (Text.trim s.toList) negative q ∧
          |q| < Double.overflowBound ∧ x.NearestTo q) ∧
      (∀ t, coerce s = .string t ↔
        t = Text.trimmed s ∧ (∀ b, t ≠ booleanText b) ∧
          ¬ DenotesFinite (Text.trim s.toList)) := by
  refine ⟨fun b => coerce_eq_boolean_iff, fun x => ?_, fun t => ?_⟩
  · rw [coerce_eq_number_iff, numberLiteral?_eq_some_iff]
  · rw [coerce_eq_string_iff, numberLiteral?_eq_none_iff]

/-- A mark without an exponent, a point without places, a zero of any exponent, and a number that
    is too large. -/
example : coerce " 1e " = .string "1e" ∧ coerce "5." = coerce "+5e0" ∧
    coerce "-0e99999" = .number (.zero true) ∧ coerce "1e309" = .string "1e309" := by
  decide +kernel

end Rule

end ProductSegments
