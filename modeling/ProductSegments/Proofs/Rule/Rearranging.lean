import ProductSegments.Proofs.Predicate.Replacement
import ProductSegments.Proofs.Rule.Compilation
import ProductSegments.Schema.Declaration

/-! # Rearranging lines

  Which clause a field has depends on the lines that name the field alone, and
  whether a text compiles on each of its lines alone. So lines can change places
  as long as those that name one field stay in their order.

  - `Rule.Rearranges`: two texts with the same lines, in an order that is the
    same for each field.
  - `Predicate.ofComparisons_eq_of_filter_eq`: a fold goes field by field.
  - `Rule.compile_of_rearranges`: the outcome of compiling stays the same.
-/

namespace ProductSegments

namespace Predicate

variable {cs ds : List Comparison}

/-- A fold depends on the comparisons on each field, not on how those on different
    fields stand between each other. -/
theorem ofComparisons_eq_of_filter_eq
    (h : ∀ field, (cs.filter fun c => c.field = field) = ds.filter fun c => c.field = field) :
    ofComparisons cs = ofComparisons ds := by
  apply Keyed.ext_get?
  intro field
  have hlast : (cs.findRev? fun c => c.field = field) = ds.findRev? fun c => c.field = field := by
    rw [List.findRev?_eq_find?_reverse, List.findRev?_eq_find?_reverse, ← List.head?_filter,
      ← List.head?_filter, List.filter_reverse, List.filter_reverse, h field]
  rw [get?_ofComparisons, get?_ofComparisons, hlast]

end Predicate

namespace Rule

variable {schema : Schema} {a b : String} {cs ds : List Comparison}

/-- The lines of one text are those of another in some order, where lines that name
    one field stand in the same order. Lines that name no field stand anywhere. -/
structure Rearranges (a b : String) : Prop where
  /-- No line is lost, added or repeated. -/
  perm : (lines b).Perm (lines a)
  /-- The lines of each field stay in their order. -/
  order : ∀ field, ((lines b).filter fun line => namedField? line = some field) =
    (lines a).filter fun line => namedField? line = some field

/-- The comparisons on a field are those of the lines that name it. -/
theorem forall₂_filter_field
    (h : List.Forall₂ (fun line c => compileLine schema line = .ok c) (lines a) cs)
    (field : String) :
    List.Forall₂ (fun line c => compileLine schema line = .ok c)
      ((lines a).filter fun line => namedField? line = some field)
      (cs.filter fun c => c.field = field) := by
  apply List.rel_filter _ h
  intro line c hline
  simp [namedField?_of_compileLine hline]

/-- Where both texts compile, their comparisons on a field are the same. -/
theorem filter_field_eq_of_rearranges (h : Rearranges a b)
    (hcs : List.Forall₂ (fun line c => compileLine schema line = .ok c) (lines a) cs)
    (hds : List.Forall₂ (fun line c => compileLine schema line = .ok c) (lines b) ds)
    (field : String) :
    (cs.filter fun c => c.field = field) = ds.filter fun c => c.field = field := by
  have hcs' := Outcome.mapM_eq_ok_iff.mpr (forall₂_filter_field hcs field)
  have hds' := Outcome.mapM_eq_ok_iff.mpr (forall₂_filter_field hds field)
  rw [h.order field, hcs'] at hds'
  exact Except.ok.inj hds'

/-- **Rearranged lines.** If lines of a text change places and those that name one
    field stay in their order, the outcome of compiling is the same: both texts
    compile to one predicate, or neither compiles. -/
theorem compile_of_rearranges (schema : Schema) {a b : String} (h : Rearranges a b) :
    (∃ p, compile schema a = .ok p ∧ compile schema b = .ok p) ∨
      ((∃ e, compile schema a = .error e) ∧ ∃ e, compile schema b = .error e) := by
  have hboth : (∃ p, compile schema a = .ok p) ↔ ∃ p, compile schema b = .ok p := by
    rw [exists_compile_iff, exists_compile_iff]
    simp only [h.perm.mem_iff]
  cases ha : compile schema a with
  | error e =>
    right
    cases hb : compile schema b with
    | error e' => exact ⟨⟨e, rfl⟩, e', rfl⟩
    | ok q =>
      obtain ⟨p, hp⟩ := hboth.mpr ⟨q, hb⟩
      rw [ha] at hp
      cases hp
  | ok p =>
    left
    obtain ⟨q, hq⟩ := hboth.mp ⟨p, ha⟩
    obtain ⟨cs, hcs, rfl⟩ := compile_eq_ok_iff.mp ha
    obtain ⟨ds, hds, rfl⟩ := compile_eq_ok_iff.mp hq
    refine ⟨_, rfl, hq.trans (congrArg _ ?_)⟩
    exact (Predicate.ofComparisons_eq_of_filter_eq (filter_field_eq_of_rearranges h hcs hds)).symm

/-- A line on the tags may stand anywhere among two lines on the price, the second
    of which counts in either place. -/
theorem compile_of_rearranges_around_tags :
    let a := "price > 1\ntags = sale\n\nprice < 5"
    let b := "tags = sale\nprice > 1\nprice < 5"
    Rearranges a b ∧
      ((∃ p, compile Schema.catalog a = .ok p ∧ compile Schema.catalog b = .ok p) ∨
        ((∃ e, compile Schema.catalog a = .error e) ∧
          ∃ e, compile Schema.catalog b = .error e)) := by
  intro a b
  have hlinesa : lines a = ["price > 1", "tags = sale", "price < 5"] := by decide
  have hlinesb : lines b = ["tags = sale", "price > 1", "price < 5"] := by decide
  have hrearranges : Rearranges a b := by
    constructor
    · rw [hlinesa, hlinesb]
      exact List.Perm.swap _ _ _
    · intro field
      have hfirst : namedField? "price > 1" = some "price" := by decide
      have htags : namedField? "tags = sale" = some "tags" := by decide
      -- the two lines that changed places name different fields
      rw [hlinesa, hlinesb]
      by_cases hfield : field = "tags"
      · simp [List.filter_cons, hfirst, hfield]
      · simp [List.filter_cons, htags, Ne.symm hfield]
  exact ⟨hrearranges, compile_of_rearranges Schema.catalog hrearranges⟩

end Rule

end ProductSegments
