import ProductSegments.Proofs.Keyed.LastWins
import ProductSegments.Schema.Declaration

/-! # The schema of a list of declarations

  A field has the kind of the last declaration of its name. Where no name is
  declared twice, every declaration is the last one of its name, so the order of
  the declarations does not matter.

  - `Words.mem_toList_ofList`: a set holds the words that it was made of.
  - `Schema.fields_ofSpecs`: the fields as they are kept.
  - `Schema.get?_ofSpecs_eq_some_iff`: the kind of a field.
  - `Schema.ofSpecs_eq_of_perm`: declarations of different names in any order.
-/

namespace ProductSegments

/-! ### Words -/

/-- A set holds the words of the list that it was made of. -/
theorem Words.mem_toList_ofList {l : List String} {s : String} :
    s ∈ (Words.ofList l).toList ↔ s ∈ l := by
  have hkeys : s ∈ (l.foldl (fun (w : Words) b => w.insert (id b) ()) ∅).keys ↔
      s ∈ l.map id ∨ s ∈ (∅ : Words).keys := Keyed.mem_keys_foldl_insert
  rw [List.map_id] at hkeys
  exact hkeys.trans (or_iff_left List.not_mem_nil)

/-- Two sets of the same words are equal. -/
theorem Words.eq_of_mem_toList_iff {w w' : Words} (h : ∀ v, v ∈ w.toList ↔ v ∈ w'.toList) :
    w = w' := by
  apply Keyed.ext_get?
  intro v
  apply Option.ext
  intro u
  -- words are bound to nothing but the unit, so that they are bound is all there is
  have hkeys : (∃ u, w.get? v = some u) ↔ ∃ u, w'.get? v = some u := by
    rw [← Keyed.mem_keys_iff, ← Keyed.mem_keys_iff]
    exact h v
  constructor
  · intro hget
    obtain ⟨_, hget'⟩ := hkeys.mp ⟨u, hget⟩
    exact hget'
  · intro hget
    obtain ⟨_, hget'⟩ := hkeys.mpr ⟨u, hget⟩
    exact hget'

/-! ### Declarations -/

namespace Schema

variable {fs fs' : List FieldSpec} {name : String} {kind : FieldKind}

theorem fields_foldl_declare (s : Schema) (fs : List FieldSpec) :
    (fs.foldl declare s).fields = fs.foldl (fun kept f => kept.insert f.name f) s.fields := by
  induction fs generalizing s with
  | nil => rfl
  | cons f fs ih => exact ih (s.declare f)

/-- Every field is kept as it was declared last, under its name. -/
theorem fields_ofSpecs (fs : List FieldSpec) :
    (ofSpecs fs).fields = fs.foldl (fun kept f => kept.insert f.name f) ∅ :=
  fields_foldl_declare ∅ fs

/-- Under a name the last declaration of it is found. -/
theorem spec?_ofSpecs_eq_some_iff {f : FieldSpec} :
    (ofSpecs fs).spec? name = some f ↔ IsLast FieldSpec.name fs f ∧ f.name = name := by
  unfold spec?
  rw [fields_ofSpecs, Keyed.get?_foldl_insert_empty_eq_some_iff]
  constructor
  · intro ⟨g, hlast, hname, hg⟩
    rw [← hg]
    exact ⟨hlast, hname⟩
  · intro ⟨hlast, hname⟩
    exact ⟨f, hlast, hname, rfl⟩

/-- A field has the kind of the last declaration of its name. -/
theorem get?_ofSpecs_eq_some_iff :
    (ofSpecs fs).get? name = some kind ↔
      ∃ f, IsLast FieldSpec.name fs f ∧ f.name = name ∧ f.kind = kind := by
  rw [get?_eq_some_iff, spec?_ofSpecs_eq_some_iff]
  constructor
  · intro ⟨hlast, _⟩
    exact ⟨_, hlast, rfl, rfl⟩
  · intro ⟨f, hlast, hname, hkind⟩
    rw [← hname, ← hkind]
    exact ⟨hlast, rfl⟩

/-- Where no name is declared twice, every declaration counts. -/
theorem get?_ofSpecs_of_nodup (h : (fs.map FieldSpec.name).Nodup) :
    (ofSpecs fs).get? name = some kind ↔ ⟨name, kind⟩ ∈ fs := by
  simp only [get?_ofSpecs_eq_some_iff, IsLast.iff_mem_of_nodup h]
  constructor
  · rintro ⟨f, hmem, rfl, rfl⟩
    exact hmem
  · intro hmem
    exact ⟨_, hmem, rfl, rfl⟩

/-- Declarations of different names make the same schema in any order. -/
theorem ofSpecs_eq_of_perm (h : (fs.map FieldSpec.name).Nodup) (hperm : fs'.Perm fs) :
    ofSpecs fs' = ofSpecs fs := by
  ext1
  rw [fields_ofSpecs, fields_ofSpecs]
  exact Keyed.foldl_insert_eq_of_perm h hperm

end Schema

end ProductSegments
