import ProductSegments.Proofs.Double.Order
import ProductSegments.Proofs.Rule.Numbers

/-! # Rules on quantities

  The quantity of a product is an integer of 64 bits, and so may be the literal
  of a rule. Both are compared as the values nearest to them: the quantity is
  converted, the literal is read from its digits. Up to 53 bits nothing is lost.
  Beyond, different integers may become equal, and none changes its side.

  - `Operator.Between` is the meaning of an operator for integers.
  - `Double.exists_ofDecimal_natCast`: an integer is read as it is converted.
  - `Rule.compile_stockQuantity`: a rule with an integer literal against the
    integers.
-/

namespace ProductSegments

/-! ### Operators on integers -/

namespace Operator

variable {op : Operator} {i j : Int}

/-- The relation of an operator between two integers. -/
def Between : Operator → Int → Int → Prop
  | .eq, i, j => i = j
  | .ne, i, j => i ≠ j
  | .gt, i, j => j < i
  | .ge, i, j => j ≤ i
  | .lt, i, j => i < j
  | .le, i, j => i ≤ j

/-- Changing the scale does not change the relation. -/
theorem between_mul_right_iff {c : Int} (hc : 0 < c) :
    op.Between (i * c) (j * c) ↔ op.Between i j := by
  have heq : i * c = j * c ↔ i = j := Int.mul_eq_mul_right_iff (Int.ne_of_gt hc)
  cases op with
  | eq => exact heq
  | ne => exact not_congr heq
  | gt => exact Int.mul_lt_mul_right hc
  | ge => exact Int.mul_le_mul_right hc
  | lt => exact Int.mul_lt_mul_right hc
  | le => exact Int.mul_le_mul_right hc

/-- Where a number is the only value, an operator holds as it does between the places of
    the numbers. -/
theorem holdsAmong_number_iff {Has : Value → Prop} {x y : Double} (hw : Has (.number x))
    (hunique : ∀ u, Has u → u = .number x) (hx : x.rank? = some i) (hy : y.rank? = some j) :
    op.HoldsAmong Has (.number y) ↔ op.Between i j := by
  have hsame : (Value.number x).SameAs (.number y) ↔ i = j := by
    simp [Value.SameAs, Double.equal_iff, hx, hy, eq_comm]
  have hbelow : (Value.number x).Below (.number y) ↔ i < j := by
    simp [Value.Below, Double.less_iff, hx, hy]
  have habove : (Value.number y).Below (.number x) ↔ j < i := by
    simp [Value.Below, Double.less_iff, hx, hy]
  by_cases hop : op = .ne
  · -- a single value is different when it is not the same
    subst hop
    rw [holdsAmong_ne_iff, holdsAmong_iff_of_unique (by decide) hw hunique]
    exact not_congr hsame
  · rw [holdsAmong_iff_of_unique hop hw hunique]
    cases op with
    | eq => exact hsame
    | ne => exact absurd rfl hop
    | gt => exact habove
    | ge =>
      show _ ∨ _ ↔ j ≤ i
      rw [habove, hsame]
      omega
    | lt => exact hbelow
    | le =>
      show _ ∨ _ ↔ i ≤ j
      rw [hbelow, hsame]
      omega

end Operator

/-! ### Integer literals -/

/-- An integer of up to 64 bits is read as the finite value that has its place. -/
theorem Double.exists_ofDecimal_natCast {n : Nat} (negative : Bool) (h : n ≤ 2 ^ 64) :
    ∃ m, ofDecimal negative ⟨n, 0⟩ = .finite negative m ∧
      (finite negative m).rank? = some (integerRank (signed negative n)) := by
  have hread : ofDecimal negative ⟨n, 0⟩ = ofRatio negative (n * 2 ^ unitExponent) 1 := by
    rw [ofDecimal_eq_ofRatio]
    simp [Decimal.numerator, Decimal.denominator]
  have hlt : naturalUnits n < limit := naturalUnits_lt_limit h
  have hfinite : ofRatio negative (n * 2 ^ unitExponent) 1 =
      .finite negative ⟨naturalUnits n, representable_roundUnits hlt⟩ :=
    ofRatio_eq_finite_iff.mpr rfl
  refine ⟨_, hread.trans hfinite, ?_⟩
  rw [integerRank_signed, naturalRank, Nat.min_eq_left (Nat.le_of_lt hlt)]
  rfl

namespace Rule

/-- **Quantities.** A rule on the quantity with an integer literal of 64 bits compiles
    with every operator. Where quantity and literal are at most 2^53 away from zero,
    the rule holds exactly when the operator does between the integers. Beyond, what
    holds with `<` or `>` does so between the integers, and `<=`, `>=` and `=` hold
    at least where they do between the integers. -/
theorem compile_stockQuantity (product : Product) (literal : String) (n : Int)
    (hliteral : Numeral.IsInteger literal.toList n) (hlow : -2 ^ 63 ≤ n) (hhigh : n < 2 ^ 63) :
    ∃ P : Operator → Predicate,
      (∀ op, compile Schema.catalog (writeLine "stock_quantity" op literal) = .ok (P op)) ∧
      (product.stockQuantity.toInt.natAbs ≤ 2 ^ 53 → n.natAbs ≤ 2 ^ 53 →
        ∀ op, (P op).matchesProduct product = true ↔ op.Between product.stockQuantity.toInt n) ∧
      ((P .lt).matchesProduct product = true → product.stockQuantity.toInt < n) ∧
      ((P .gt).matchesProduct product = true → n < product.stockQuantity.toInt) ∧
      (product.stockQuantity.toInt ≤ n → (P .le).matchesProduct product = true) ∧
      (n ≤ product.stockQuantity.toInt → (P .ge).matchesProduct product = true) ∧
      (product.stockQuantity.toInt = n → (P .eq).matchesProduct product = true) := by
  obtain ⟨negative, k, hn, hdenotes⟩ := hliteral.denotes
  have hbound : k ≤ 2 ^ 64 := by
    cases negative <;> simp at hn <;> omega
  obtain ⟨m, hread, hrank⟩ := Double.exists_ofDecimal_natCast negative hbound
  have hplace : (Double.finite negative m).rank? = some (Double.integerRank n) := by
    rw [hrank, hn]
    rfl
  have hfield : IsField "stock_quantity" := by decide
  have hkind : Schema.catalog.get? "stock_quantity" = some .number := by decide
  generalize hq : product.stockQuantity.toInt = q
  -- both sides of the comparison are at the places of their integers
  have hmatches (op : Operator) :
      (Predicate.ofComparisons
          [⟨"stock_quantity", op, .number (.finite negative m)⟩]).matchesProduct product = true ↔
        op.Between (Double.integerRank q) (Double.integerRank n) := by
    rw [Predicate.matchesProduct_ofComparisons_singleton_iff]
    show op.HoldsAmong (product.Has "stock_quantity") _ ↔ _
    have hunique (u : Value) (hu : product.Has "stock_quantity" u) :
        u = .number (Double.ofInt product.stockQuantity.toInt) :=
      hu.eq_of_ne_tags (by decide) .stockQuantity
    apply Operator.holdsAmong_number_iff .stockQuantity hunique _ hplace
    rw [hq]
    exact Double.rank?_ofInt q
  refine ⟨_, fun op => compile_writeLine_of_denotes hfield hkind hdenotes hread op,
    ?_, ?_, ?_, ?_, ?_, ?_⟩
  · intro hqsmall hnsmall op
    rw [hmatches, Double.integerRank_eq hqsmall, Double.integerRank_eq hnsmall]
    exact Operator.between_mul_right_iff (Int.pow_pos (by decide))
  · intro h
    exact Double.lt_of_integerRank_lt ((hmatches .lt).mp h)
  · intro h
    exact Double.lt_of_integerRank_lt ((hmatches .gt).mp h)
  · intro h
    exact (hmatches .le).mpr (Double.integerRank_mono h)
  · intro h
    exact (hmatches .ge).mpr (Double.integerRank_mono h)
  · intro h
    exact (hmatches .eq).mpr (congrArg _ h)

/-- At the upper end, where both are rounded up to 2^63, the greater one of two
    neighbours is not taken for the lesser one. -/
theorem compile_stockQuantity_at_the_end :
    let product : Product := { id := 1, title := "Tent", stockQuantity := 9223372036854775807 }
    (Numeral.IsInteger "+9223372036854775806".toList 9223372036854775806 ∧
      (-2 ^ 63 : Int) ≤ 9223372036854775806 ∧ (9223372036854775806 : Int) < 2 ^ 63) ∧
    ∃ P : Operator → Predicate,
      (∀ op, compile Schema.catalog (writeLine "stock_quantity" op "+9223372036854775806") =
        .ok (P op)) ∧
      (P .lt).matchesProduct product = false ∧ (P .ge).matchesProduct product = true := by
  intro product
  have hdigits : Numeral.IsDigits "9223372036854775806".toList :=
    ⟨by decide, List.all_eq_true.mp (by decide)⟩
  have hliteral : Numeral.IsInteger "+9223372036854775806".toList 9223372036854775806 :=
    .parts .plus hdigits
  have hquantity : product.stockQuantity.toInt = 9223372036854775807 := by decide
  obtain ⟨P, hcompile, -, hlt, -, -, hge, -⟩ :=
    compile_stockQuantity product "+9223372036854775806" 9223372036854775806 hliteral
      (by decide) (by decide)
  rw [hquantity] at hlt hge
  refine ⟨⟨hliteral, by decide, by decide⟩, P, hcompile, ?_, hge (by decide)⟩
  rw [Bool.eq_false_iff]
  intro hholds
  exact absurd (hlt hholds) (by decide)

end Rule

end ProductSegments
