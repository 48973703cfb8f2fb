import ProductSegments.Proofs.Segment.Events

/-! # The log of a fold

  What a fold of comparisons leaves in the log, told from the list of comparisons
  alone: an entry for each comparison that has an earlier one on its field, in the
  order of the list, and a summary at the end. Every comparison either replaces a
  clause, which leaves an entry, or adds a clause, so that the entries and the
  clauses together are as many as the comparisons.

  - `length_events_addLogged` and `length_events_addAllLogged`: one comparison,
    and a list of them.
  - `entries_ofComparisonsLogged`: the log of a fold.
-/

namespace ProductSegments

namespace Predicate

/-! ### Counting -/

/-- A comparison leaves an event or adds a clause, and never both. -/
theorem length_events_addLogged (p : Predicate) (c : Comparison) :
    (p.addLogged c).events.length + (p.addLogged c).value.size = p.size + 1 := by
  have hsize : (p.addLogged c).value.size = if c.field ∈ p.keys then p.size else p.size + 1 :=
    Keyed.size_insert p c.field c.clause
  rw [hsize]
  by_cases h : c.field ∈ p.keys
  · obtain ⟨clause, hclause⟩ := Keyed.mem_keys_iff.mp h
    simp [addLogged, h, hclause, Nat.add_comm]
  · have hnone : p.get? c.field = none := by
      rw [Option.eq_none_iff_forall_ne_some]
      exact fun clause hclause => h (Keyed.mem_keys_iff.mpr ⟨clause, hclause⟩)
    simp [addLogged, h, hnone]

/-- The events of a list of comparisons and the clauses that they leave are as many
    as the comparisons and the clauses before. -/
theorem length_events_addAllLogged (p : Predicate) (cs : List Comparison) :
    (addAllLogged p cs).events.length + (addAllLogged p cs).value.size = p.size + cs.length := by
  induction cs generalizing p with
  | nil => simp [addAllLogged]
  | cons c cs ih =>
    have hstep := length_events_addLogged p c
    have hrest := ih (p.addLogged c).value
    rw [addAllLogged, Logged.events_bind, Logged.value_bind, List.length_append, List.length_cons]
    omega

/-! ### The log -/

/-- The entry says that the comparison at the place replaces the clause of the
    nearest earlier one on its field. -/
def ReportsAt (cs : List Comparison) (i : Nat) (entry : LogEntry) : Prop :=
  ∃ c d, cs[i]? = some c ∧ IsLast Comparison.field (cs.take i) d ∧ d.field = c.field ∧
    entry = ⟨.debug, "later rule replaces earlier clause",
      [("field", c.field), ("replaced", d.clause.display)]⟩

/-- **The log of a fold.** There is an entry for each place of the list whose
    comparison has an earlier one on its field, in the order of the places. It shows
    the field and the clause of the nearest such comparison. A summary follows, with
    the numbers of comparisons and of clauses, which are as many as there are
    different fields. The entries in front of it are as many as the comparisons are
    more than the clauses. -/
theorem entries_ofComparisonsLogged (cs : List Comparison) :
    ∃ places replaced,
      (ofComparisonsLogged cs).events.map Event.entry = replaced ++
        [⟨.debug, "compiled segment predicate",
          [("rules", toString cs.length),
           ("clauses", toString (ofComparisonsLogged cs).value.size)]⟩] ∧
      places.Pairwise (· < ·) ∧
      (∀ i, i ∈ places ↔
        ∃ c, cs[i]? = some c ∧ c.field ∈ (cs.take i).map Comparison.field) ∧
      List.Forall₂ (ReportsAt cs) places replaced ∧
      (ofComparisonsLogged cs).value.size = (cs.map Comparison.field).dedup.length ∧
      replaced.length + (ofComparisonsLogged cs).value.size = cs.length := by
  obtain ⟨places, hascending, hmem, hrepeats⟩ := exists_places_repeats Comparison.field cs
  rw [value_ofComparisonsLogged, size_ofComparisons]
  refine ⟨places, (repeats Comparison.field cs).map fun x =>
    (Event.replacedClause x.2.field x.1.clause).entry, ?_, hascending, hmem, ?_, rfl, ?_⟩
  · rw [events_ofComparisonsLogged, List.map_append, List.map_map]
    rfl
  · rw [List.forall₂_map_right_iff]
    exact hrepeats.imp fun i x h => ⟨x.2, x.1, h.place, h.nearest, h.same, rfl⟩
  · have hcount := length_events_addAllLogged ∅ cs
    -- the events that are counted are those of the repeats
    have hevents : (addAllLogged ∅ cs).events =
        (repeats Comparison.field cs).map fun x => .replacedClause x.2.field x.1.clause :=
      events_addAllLogged [] cs
    rw [hevents, value_addAllLogged, List.length_map] at hcount
    rw [List.length_map, ← size_ofComparisons]
    exact hcount.trans (Nat.zero_add _)

end Predicate

end ProductSegments
