import ProductSegments.Proofs.Rule.Compilation

/-! # Compiling joined texts

  Two texts that are joined with a line feed compile like the one after the
  other: the first failure is the failure of the whole, and where both compile
  the clauses of the second text lie over those of the first.

  - `comparisons_append_lf`: the comparisons of joined texts.
  - `compile_append_lf`: what joined texts compile to.
  - `exists_compile_append_lf_of_disjoint`: texts on different fields ask for both
    when they are joined.
-/

namespace ProductSegments

namespace Rule

/-- The comparisons of joined texts are those of the one and then those of the
    other, unless one of them fails. -/
theorem comparisons_append_lf (schema : Schema) (a b : String) :
    comparisons schema (a ++ "\n" ++ b) =
      (do return (← comparisons schema a) ++ (← comparisons schema b)) := by
  unfold comparisons
  rw [lines_append_lf, List.mapM_append]

/-- **Joined texts.** Two texts with a line feed in between fail with the error
    of the first one that fails. If both compile, so does the whole, and a field
    has the clause that the second text puts on it, or else the clause that the
    first text does, if any. -/
theorem compile_append_lf (schema : Schema) (a b : String) :
    match compile schema a, compile schema b with
    | .error e, _ => compile schema (a ++ "\n" ++ b) = .error e
    | .ok _, .error e => compile schema (a ++ "\n" ++ b) = .error e
    | .ok p, .ok q => ∃ r, compile schema (a ++ "\n" ++ b) = .ok r ∧
        ∀ field, r.get? field = (q.get? field).or (p.get? field) := by
  unfold compile
  rw [comparisons_append_lf]
  -- the texts are looked at in their order, as the compilation does
  cases comparisons schema a with
  | error e => rfl
  | ok cs =>
    cases comparisons schema b with
    | error e => rfl
    | ok ds => exact ⟨_, rfl, Predicate.get?_ofComparisons_append cs ds⟩

/-- Joined texts that name no field in common compile to a predicate that asks for
    what both ask for. -/
theorem exists_compile_append_lf_of_disjoint {schema : Schema} {a b : String} {p q : Predicate}
    (ha : compile schema a = .ok p) (hb : compile schema b = .ok q)
    (hfields : ∀ field ∈ namedFields a, field ∉ namedFields b) :
    ∃ r, compile schema (a ++ "\n" ++ b) = .ok r ∧ ∀ product : Product,
      r.matchesProduct product = (p.matchesProduct product && q.matchesProduct product) := by
  obtain ⟨cs, hcs, rfl⟩ := compile_eq_ok_iff.mp ha
  obtain ⟨ds, hds, rfl⟩ := compile_eq_ok_iff.mp hb
  rw [namedFields_eq_map hcs, namedFields_eq_map hds] at hfields
  refine ⟨.ofComparisons (cs ++ ds), compile_eq_ok_iff.mpr ⟨cs ++ ds, ?_, rfl⟩, ?_⟩
  · rw [lines_append_lf]
    exact List.rel_append hcs hds
  · exact Predicate.matchesProduct_ofComparisons_append fun field hc hd => hfields field hc hd

end Rule

end ProductSegments
