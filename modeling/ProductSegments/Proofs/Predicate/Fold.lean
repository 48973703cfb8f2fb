import ProductSegments.Proofs.Keyed.LastWins
import ProductSegments.Proofs.Value.Relation
import ProductSegments.Rule.Compile

/-! # The predicate of a list of comparisons

  A predicate is read through its look-up: a field has the clause of the last
  comparison on it. A product meets the predicate when every comparison that is
  the last on its field holds among the product's values.
-/

namespace ProductSegments

/-! ### The clause of a comparison -/

namespace Comparison

/-- The product has the values that the comparison asks for. -/
def SatisfiedBy (c : Comparison) (product : Product) : Prop :=
  c.op.HoldsAmong (product.Has c.field) c.value

@[simp] theorem operator_clause (c : Comparison) : c.clause.operator = c.op := by
  obtain ⟨field, op, v⟩ := c
  cases op <;> rfl

@[simp] theorem value_clause (c : Comparison) : c.clause.value = c.value := by
  obtain ⟨field, op, v⟩ := c
  cases op <;> rfl

/-- The clause of a comparison has equality in its own form. -/
theorem clause_ne_compare_eq (c : Comparison) (v : Value) : c.clause ≠ .compare .eq v := by
  obtain ⟨field, op, w⟩ := c
  cases op <;> simp [clause]

theorem holds_clause_iff {c : Comparison} {product : Product} :
    c.clause.holds (product.attributeAt c.field) = true ↔ c.SatisfiedBy product := by
  rw [Clause.holds_attributeAt_iff, operator_clause, value_clause]
  rfl

end Comparison

/-- A clause with equality in its own form is that of a comparison. -/
theorem Clause.clause_comparison {clause : Clause} (h : ∀ v, clause ≠ .compare .eq v)
    (field : String) : Comparison.clause ⟨field, clause.operator, clause.value⟩ = clause := by
  cases clause with
  | equals v => rfl
  | compare op v =>
    cases op with
    | eq => exact absurd rfl (h v)
    | ne => rfl
    | gt => rfl
    | ge => rfl
    | lt => rfl
    | le => rfl

namespace Predicate

variable {p : Predicate} {cs : List Comparison} {field : String} {clause : Clause}
  {product : Product}

/-- A field has the clause of the last comparison on it. -/
theorem get?_ofComparisons_eq_some_iff :
    (ofComparisons cs).get? field = some clause ↔
      ∃ c, IsLast Comparison.field cs c ∧ c.field = field ∧ c.clause = clause := by
  have hfold : (cs.foldl (fun p c => p.insert c.field c.clause) (∅ : Predicate)).get? field
        = some clause ↔
      ∃ c, IsLast Comparison.field cs c ∧ c.field = field ∧ c.clause = clause :=
    Keyed.get?_foldl_insert_empty_eq_some_iff
  exact hfold

/-- Every clause of a folded predicate is that of one of the comparisons. -/
theorem exists_of_mem_ofComparisons {e : String × Clause} (h : e ∈ (ofComparisons cs).entries) :
    ∃ c ∈ cs, c.field = e.1 ∧ c.clause = e.2 := by
  obtain ⟨c, hlast, hfield, hclause⟩ :=
    get?_ofComparisons_eq_some_iff.mp (Keyed.get?_eq_some_iff.mpr h)
  exact ⟨c, hlast.mem, hfield, hclause⟩

/-- Only the empty list has no clauses. -/
theorem isEmpty_ofComparisons_iff : (ofComparisons cs).isEmpty = true ↔ cs = [] := by
  rw [Keyed.isEmpty_iff]
  constructor
  · intro h
    cases cs with
    | nil => rfl
    | cons c cs =>
      have hmem : c ∈ c :: cs := List.mem_cons_self
      obtain ⟨d, hlast, hfield⟩ : ∃ d, IsLast Comparison.field (c :: cs) d ∧ d.field = c.field :=
        IsLast.exists_of_mem hmem
      have hget := get?_ofComparisons_eq_some_iff.mpr ⟨d, hlast, rfl, rfl⟩
      rw [h] at hget
      cases hget
  · intro h field
    rw [h]
    rfl

/-- The clauses of later comparisons lie over those of earlier ones. -/
theorem get?_ofComparisons_append (cs ds : List Comparison) (field : String) :
    (ofComparisons (cs ++ ds)).get? field =
      ((ofComparisons ds).get? field).or ((ofComparisons cs).get? field) := by
  unfold ofComparisons
  rw [List.foldl_append]
  exact Keyed.get?_foldl_insert _ ds field

/-! ### The comparisons of a predicate -/

/-- A comparison for each clause. -/
def comparisons (p : Predicate) : List Comparison :=
  p.entries.map fun e => ⟨e.1, e.2.operator, e.2.value⟩

/-- A predicate with equality in its own form is the fold of its comparisons. -/
theorem ofComparisons_comparisons (h : ∀ e ∈ p.entries, ∀ v, e.2 ≠ .compare .eq v) :
    ofComparisons p.comparisons = p := by
  have hclause : ∀ e ∈ p.entries, Comparison.clause ⟨e.1, e.2.operator, e.2.value⟩ = e.2 :=
    fun e he => Clause.clause_comparison (h e he) e.1
  calc ofComparisons p.comparisons
    _ = p.entries.foldl
          (fun q e => q.insert e.1 (Comparison.clause ⟨e.1, e.2.operator, e.2.value⟩)) ∅ :=
        List.foldl_map
    _ = Keyed.ofList p.entries := List.foldl_ext _ _ _ fun q e he => by rw [hclause e he]
    _ = p := Keyed.ofList_entries p

/-! ### Matching -/

theorem matchesProduct_iff :
    p.matchesProduct product = true ↔
      ∀ field clause, p.get? field = some clause →
        clause.holds (product.attributeAt field) = true := by
  unfold matchesProduct
  rw [List.all_eq_true]
  constructor
  · intro h field clause hget
    exact h (field, clause) (Keyed.get?_eq_some_iff.mp hget)
  · intro h e he
    exact h e.1 e.2 (Keyed.get?_eq_some_iff.mpr he)

/-- A product meets a folded predicate when it satisfies every comparison that
    is the last on its field. -/
theorem matchesProduct_ofComparisons_iff :
    (ofComparisons cs).matchesProduct product = true ↔
      ∀ c, IsLast Comparison.field cs c → c.SatisfiedBy product := by
  rw [matchesProduct_iff]
  constructor
  · intro h c hlast
    have hget := get?_ofComparisons_eq_some_iff.mpr ⟨c, hlast, rfl, rfl⟩
    exact Comparison.holds_clause_iff.mp (h c.field c.clause hget)
  · intro h field clause hget
    obtain ⟨c, hlast, rfl, rfl⟩ := get?_ofComparisons_eq_some_iff.mp hget
    exact Comparison.holds_clause_iff.mpr (h c hlast)

/-- Comparisons on other fields add their conditions to those in front. -/
theorem matchesProduct_ofComparisons_append {ds : List Comparison}
    (hfields : List.Disjoint (cs.map Comparison.field) (ds.map Comparison.field))
    (product : Product) :
    (ofComparisons (cs ++ ds)).matchesProduct product =
      ((ofComparisons cs).matchesProduct product && (ofComparisons ds).matchesProduct product) := by
  have hfield {cs : List Comparison} {field : String} {clause : Clause}
      (h : (ofComparisons cs).get? field = some clause) : field ∈ cs.map Comparison.field := by
    obtain ⟨c, hc, rfl, -⟩ := exists_of_mem_ofComparisons (Keyed.get?_eq_some_iff.mp h)
    exact List.mem_map_of_mem hc
  rw [Bool.eq_iff_iff, Bool.and_eq_true]
  simp only [matchesProduct_iff, get?_ofComparisons_append, Option.or_eq_some_iff]
  constructor
  · intro h
    refine ⟨fun field clause hget => h field clause (.inr ⟨?_, hget⟩),
      fun field clause hget => h field clause (.inl hget)⟩
    -- a clause in front is kept, since its field does not come again
    rw [Option.eq_none_iff_forall_ne_some]
    exact fun clause' hget' => hfields (hfield hget) (hfield hget')
  · intro ⟨hcs, hds⟩ field clause hget
    rcases hget with hget | ⟨-, hget⟩
    · exact hds field clause hget
    · exact hcs field clause hget

/-- The predicate of a single comparison asks for nothing else. -/
theorem matchesProduct_ofComparisons_singleton_iff {c : Comparison} :
    (ofComparisons [c]).matchesProduct product = true ↔ c.SatisfiedBy product := by
  rw [← Comparison.holds_clause_iff]
  show ([(c.field, c.clause)].all fun e => e.2.holds (product.attributeAt e.1)) = true ↔ _
  simp

end Predicate

end ProductSegments
