import ProductSegments.Proofs.Predicate.Reports

/-! # Folding a predicate again

  A predicate reads as a list of comparisons, one for each of its clauses. These are
  on different fields, so folding them replaces nothing and their order does not
  matter. A list of comparisons is in this way brought into a normal form:

  - `Comparison.clause_eq_ite`: the form of a clause tells its operator.
  - `ofComparisons_eq_of_perm` and `events_ofComparisonsLogged_of_nodup`: the fold of
    comparisons on different fields.
  - `ofComparisonsLogged_of_perm_comparisons`: the fold of a folded predicate.
-/

namespace ProductSegments

/-- Equality is the one operator whose clause has a form of its own. -/
theorem Comparison.clause_eq_ite (c : Comparison) :
    c.clause = if c.op = .eq then .equals c.value else .compare c.op c.value := by
  obtain ⟨field, op, v⟩ := c
  cases op <;> rfl

namespace Predicate

variable {cs ds : List Comparison} {field : String}

/-! ### Comparisons on different fields -/

/-- Comparisons on different fields make one predicate in any order. -/
theorem ofComparisons_eq_of_perm (h : (cs.map Comparison.field).Nodup) (hperm : ds.Perm cs) :
    ofComparisons ds = ofComparisons cs :=
  Keyed.foldl_insert_eq_of_perm h hperm

/-- Comparisons on different fields make a clause each. -/
theorem size_ofComparisons_of_nodup (h : (cs.map Comparison.field).Nodup) :
    (ofComparisons cs).size = cs.length := by
  rw [size_ofComparisons, h.dedup, List.length_map]

/-- Comparisons on different fields replace nothing. -/
theorem events_ofComparisonsLogged_of_nodup (h : (cs.map Comparison.field).Nodup) :
    (ofComparisonsLogged cs).events = [.compiledPredicate cs.length cs.length] := by
  have hsize : (addAllLogged ∅ cs).value.size = cs.length := by
    rw [value_addAllLogged]
    exact size_ofComparisons_of_nodup h
  -- every comparison adds a clause, so none is left to report
  have hnone : (addAllLogged ∅ cs).events = [] := by
    have hcount := length_events_addAllLogged ∅ cs
    have hempty : (∅ : Predicate).size = 0 := rfl
    rw [hsize, hempty] at hcount
    exact List.length_eq_zero_iff.mp (by omega)
  unfold ofComparisonsLogged
  rw [Logged.events_bind, hnone, hsize]
  rfl

/-! ### The comparisons of a predicate -/

/-- The comparisons of a predicate are on its fields, in their order. -/
theorem map_field_comparisons (p : Predicate) : p.comparisons.map Comparison.field = p.keys := by
  simp [comparisons, Keyed.keys]

theorem length_comparisons (p : Predicate) : p.comparisons.length = p.size := List.length_map _

/-- No two comparisons of a predicate are on one field. -/
theorem nodup_map_field_comparisons (p : Predicate) :
    (p.comparisons.map Comparison.field).Nodup := by
  rw [map_field_comparisons]
  exact p.nodup_keys

/-- The clauses of a fold have equality in its own form. -/
theorem ne_compare_eq_of_mem_ofComparisons {e : String × Clause}
    (h : e ∈ (ofComparisons cs).entries) (v : Value) : e.2 ≠ .compare .eq v := by
  obtain ⟨c, -, -, hclause⟩ := exists_of_mem_ofComparisons h
  rw [← hclause]
  exact c.clause_ne_compare_eq v

/-- The form of a clause of a fold tells its operator. -/
theorem clause_eq_ite_of_mem_ofComparisons {e : String × Clause}
    (h : e ∈ (ofComparisons cs).entries) :
    e.2 = if e.2.operator = .eq then .equals e.2.value
      else .compare e.2.operator e.2.value := by
  obtain ⟨c, -, -, hclause⟩ := exists_of_mem_ofComparisons h
  rw [← hclause, Comparison.operator_clause, Comparison.value_clause]
  exact c.clause_eq_ite

/-- A field on which there is no comparison has no clause. -/
theorem get?_ofComparisons_eq_none (h : ∀ c ∈ cs, c.field ≠ field) :
    (ofComparisons cs).get? field = none := by
  rw [Option.eq_none_iff_forall_ne_some]
  intro clause hget
  obtain ⟨c, hlast, hfield, -⟩ := get?_ofComparisons_eq_some_iff.mp hget
  exact h c hlast.mem hfield

/-- **Folding again.** The clauses of a folded predicate, read as comparisons and
    folded in any order, make the same predicate, and none of them replaces another.
    A clause of the predicate is an equality when its operator is `=` and a comparison
    with its operator otherwise. A field has the clause of the last comparison on it,
    and none when there is no such comparison. -/
theorem ofComparisonsLogged_of_perm_comparisons (cs : List Comparison) :
    let p := (ofComparisonsLogged cs).value
    (∀ ds, ds.Perm p.comparisons → (ofComparisonsLogged ds).value = p ∧
      (ofComparisonsLogged ds).events = [.compiledPredicate p.size p.size]) ∧
    (∀ e ∈ p.entries, e.2 =
      if e.2.operator = .eq then .equals e.2.value else .compare e.2.operator e.2.value) ∧
    (∀ c, IsLast Comparison.field cs c → p.get? c.field =
      some (if c.op = .eq then .equals c.value else .compare c.op c.value)) ∧
    ∀ field, (∀ c ∈ cs, c.field ≠ field) → p.get? field = none := by
  intro p
  have hp : p = ofComparisons cs := value_ofComparisonsLogged cs
  rw [hp]
  refine ⟨fun ds hperm => ⟨?_, ?_⟩, ?_, ?_, ?_⟩
  · rw [value_ofComparisonsLogged,
      ofComparisons_eq_of_perm (nodup_map_field_comparisons _) hperm]
    exact ofComparisons_comparisons fun e he v => ne_compare_eq_of_mem_ofComparisons he v
  · have hnodup : (ds.map Comparison.field).Nodup :=
      (hperm.map Comparison.field).nodup_iff.mpr (nodup_map_field_comparisons _)
    rw [events_ofComparisonsLogged_of_nodup hnodup, hperm.length_eq, length_comparisons]
  · exact fun e he => clause_eq_ite_of_mem_ofComparisons he
  · intro c hlast
    rw [← c.clause_eq_ite]
    exact get?_ofComparisons_eq_some_iff.mpr ⟨c, hlast, rfl, rfl⟩
  · exact fun field h => get?_ofComparisons_eq_none h

/-- Three comparisons, two of them on the price with NaN, folded again with the
    fields in descending order. -/
theorem ofComparisonsLogged_of_perm_comparisons_with_nan :
    let cs : List Comparison := [⟨"price", .eq, .number .nan⟩, ⟨"tags", .eq, .string "sale"⟩,
      ⟨"price", .lt, .number .nan⟩]
    let ds : List Comparison := [⟨"tags", .eq, .string "sale"⟩, ⟨"price", .lt, .number .nan⟩]
    let p := (ofComparisonsLogged cs).value
    ds.Perm p.comparisons ∧ (ofComparisonsLogged ds).value = p ∧
      (ofComparisonsLogged ds).events = [.compiledPredicate 2 2] ∧
      IsLast Comparison.field cs ⟨"price", .lt, .number .nan⟩ ∧
      p.get? "price" = some (.compare .lt (.number .nan)) ∧
      (∀ c ∈ cs, c.field ≠ "title") ∧ p.get? "title" = none := by
  intro cs ds p
  have hcomparisons : p.comparisons =
      [⟨"price", .lt, .number .nan⟩, ⟨"tags", .eq, .string "sale"⟩] := by decide
  have hsize : p.size = 2 := by decide
  have hperm : ds.Perm p.comparisons := by
    rw [hcomparisons]
    exact List.Perm.swap _ _ _
  have hlast : IsLast Comparison.field cs ⟨"price", .lt, .number .nan⟩ :=
    ⟨[⟨"price", .eq, .number .nan⟩, ⟨"tags", .eq, .string "sale"⟩], [], rfl, by simp⟩
  have hnone : ∀ c ∈ cs, c.field ≠ "title" := by decide
  obtain ⟨hagain, -, hget, hmissing⟩ := ofComparisonsLogged_of_perm_comparisons cs
  obtain ⟨hvalue, hevents⟩ := hagain ds hperm
  rw [hsize] at hevents
  exact ⟨hperm, hvalue, hevents, hlast, hget _ hlast, hnone, hmissing "title" hnone⟩

end Predicate

end ProductSegments
