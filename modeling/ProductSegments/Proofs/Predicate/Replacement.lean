import ProductSegments.Proofs.Keyed.Repeats
import ProductSegments.Proofs.Predicate.Fold

/-! # What a fold reports

  Folding comparisons reports a replacement for every comparison whose field an
  earlier one is on, with the clause of the nearest such comparison, and then the
  numbers of comparisons and of different fields.

  - `get?_ofComparisons`: the clause on a field is that of the comparison that is
    found first from the end.
  - `size_ofComparisons`: there is a clause for each field.
  - `events_ofComparisonsLogged`: the events of a fold.
-/

namespace ProductSegments

namespace Predicate

variable {cs : List Comparison} {field : String}

/-! ### The clauses of a fold -/

/-- The clause on a field is that of the comparison on it that is found first
    from the end. -/
theorem get?_ofComparisons (cs : List Comparison) (field : String) :
    (ofComparisons cs).get? field =
      (cs.findRev? fun c => c.field = field).map Comparison.clause := by
  apply Option.ext
  intro clause
  simp only [get?_ofComparisons_eq_some_iff, Option.map_eq_some_iff, findRev?_eq_some_iff,
    and_assoc]

/-- The fields with a clause are those of the comparisons. -/
theorem mem_keys_ofComparisons :
    field ∈ (ofComparisons cs).keys ↔ field ∈ cs.map Comparison.field := by
  rw [← Keyed.contains_iff, Keyed.contains, get?_ofComparisons, Option.isSome_map,
    List.findRev?_eq_find?_reverse]
  simp

/-- There are as many clauses as different fields. -/
theorem size_ofComparisons (cs : List Comparison) :
    (ofComparisons cs).size = (cs.map Comparison.field).dedup.length :=
  Keyed.size_eq_of_mem_keys_iff fun _ => mem_keys_ofComparisons

/-! ### The events of a fold -/

/-- After some comparisons, further ones report a replacement for each of them
    that has one on its field in front. -/
theorem events_addAllLogged (before cs : List Comparison) :
    (addAllLogged (ofComparisons before) cs).events =
      (repeatsAfter Comparison.field before cs).map fun x =>
        .replacedClause x.2.field x.1.clause := by
  induction cs generalizing before with
  | nil => rfl
  | cons c cs ih =>
    have hadd : (ofComparisons before).add c = ofComparisons (before ++ [c]) := by
      simp [ofComparisons]
    rw [addAllLogged, Logged.events_bind, repeatsAfter, List.map_append, ← ih, ← hadd]
    congr 1
    -- one comparison replaces the clause of the nearest one in front
    simp only [addLogged, get?_ofComparisons]
    cases before.findRev? fun b => b.field = c.field <;> rfl

/-- A fold reports a replacement for each comparison that has an earlier one on
    its field, and then the numbers of comparisons and of different fields. -/
theorem events_ofComparisonsLogged (cs : List Comparison) :
    (ofComparisonsLogged cs).events =
      ((repeats Comparison.field cs).map fun x => .replacedClause x.2.field x.1.clause) ++
        [.compiledPredicate cs.length (cs.map Comparison.field).dedup.length] := by
  rw [← size_ofComparisons]
  have hreplaced := events_addAllLogged [] cs
  have hvalue : (addAllLogged ∅ cs).value = ofComparisons cs := value_addAllLogged ∅ cs
  unfold ofComparisonsLogged
  rw [Logged.events_bind, hvalue]
  exact congrArg (· ++ _) hreplaced

end Predicate

end ProductSegments
