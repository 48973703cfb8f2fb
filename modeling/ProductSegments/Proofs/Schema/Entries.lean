import ProductSegments.Proofs.Outcome
import ProductSegments.Proofs.Schema.Declarations
import ProductSegments.Proofs.Text.ByteOrder
import ProductSegments.Schema.Document

/-! # The schema of a document

  A schema document gives every field an entry. The entries make a schema when
  each of them fits together, and then it is the schema of the declarations that
  the entries stand for, in whatever order these are made. Otherwise the field
  with the least name among those that have an unfit entry is reported.

  - `FieldEntry.Fits`: an enumeration lists values and no other field does.
  - `FieldEntry.Declares`: the kind that an entry stands for.
  - `FieldEntry.resolve_eq_ok_iff` and `resolve_eq_error_iff`: one entry.
  - `Schema.ofToml_of_holds`: a whole document.
-/

namespace ProductSegments

/-! ### One entry -/

namespace FieldEntry

/-- The parts of an entry go together. -/
structure Fits (entry : FieldEntry) : Prop where
  /-- An enumeration lists one value at least. -/
  listed : entry.kind = .enumeration → ∃ values, entry.values? = some values ∧ values ≠ []
  /-- Any other field lists no values, not even an empty list of them. -/
  unlisted : entry.kind ≠ .enumeration → entry.values? = none

/-- The entry stands for a declaration of the kind. -/
inductive Declares : FieldEntry → FieldKind → Prop where
  /-- Numbers. -/
  | number : Declares ⟨.number, none⟩ .number
  /-- `true` and `false`. -/
  | boolean : Declares ⟨.boolean, none⟩ .boolean
  /-- Any text. -/
  | string : Declares ⟨.string, none⟩ .string
  /-- The listed values, as they are listed. -/
  | enumeration {values : List String} (h : values ≠ []) :
    Declares ⟨.enumeration, some values⟩ (.enumeration (Words.ofList values))

/-- What is reported of an entry that is not fit. -/
def misfit (field : String) (entry : FieldEntry) : SchemaError :=
  if entry.kind = .enumeration then .emptyEnum field else .unexpectedValues field

variable {field : String} {entry : FieldEntry} {kind : FieldKind} {e : SchemaError}

theorem resolve_eq_ok_iff : entry.resolve field = .ok kind ↔ entry.Declares kind := by
  constructor
  · intro h
    unfold resolve at h
    split at h <;> cases h
    · exact .enumeration (List.cons_ne_nil _ _)
    · exact .number
    · exact .boolean
    · exact .string
  · intro h
    cases h with
    | number => rfl
    | boolean => rfl
    | string => rfl
    | @enumeration values h =>
      cases values with
      | nil => exact absurd rfl h
      | cons v vs => rfl

/-- An entry that fits together stands for a kind, and no other entry does. -/
theorem fits_iff : entry.Fits ↔ ∃ kind, entry.Declares kind := by
  constructor
  · intro h
    obtain ⟨name, values?⟩ := entry
    by_cases hname : name = .enumeration
    · subst hname
      obtain ⟨values, rfl, hne⟩ := h.listed rfl
      exact ⟨_, .enumeration hne⟩
    · obtain rfl : values? = none := h.unlisted hname
      cases name with
      | number => exact ⟨_, .number⟩
      | boolean => exact ⟨_, .boolean⟩
      | string => exact ⟨_, .string⟩
      | enumeration => exact absurd rfl hname
  · rintro ⟨kind, h⟩
    cases h with
    | enumeration hne => exact ⟨fun _ => ⟨_, rfl, hne⟩, fun h => absurd rfl h⟩
    | number | boolean | string => exact ⟨fun h => absurd h (by decide), fun _ => rfl⟩

theorem eq_misfit_of_resolve (h : entry.resolve field = .error e) : e = entry.misfit field := by
  unfold resolve at h
  split at h <;> cases h
  · rfl
  · next hne => exact (if_neg hne).symm

/-- An entry is reported exactly when its parts do not go together. -/
theorem resolve_eq_error_iff :
    entry.resolve field = .error e ↔ ¬ entry.Fits ∧ e = entry.misfit field := by
  rw [fits_iff]
  cases hr : entry.resolve field with
  | ok kind =>
    constructor
    · intro h
      cases h
    · intro ⟨hnot, _⟩
      exact absurd ⟨kind, resolve_eq_ok_iff.mp hr⟩ hnot
  | error e' =>
    have he' : e' = entry.misfit field := eq_misfit_of_resolve hr
    rw [he', Except.error.injEq, eq_comm]
    refine (and_iff_right ?_).symm
    rintro ⟨kind, hkind⟩
    rw [resolve_eq_ok_iff.mpr hkind] at hr
    cases hr

theorem spec_eq_ok_iff {f : FieldSpec} :
    entry.spec field = .ok f ↔ f.name = field ∧ entry.Declares f.kind := by
  unfold spec
  rw [Outcome.map_eq_ok_iff]
  constructor
  · rintro ⟨kind, hkind, rfl⟩
    exact ⟨rfl, resolve_eq_ok_iff.mp hkind⟩
  · rintro ⟨rfl, hkind⟩
    exact ⟨f.kind, resolve_eq_ok_iff.mpr hkind, rfl⟩

theorem spec_eq_error_iff :
    entry.spec field = .error e ↔ ¬ entry.Fits ∧ e = entry.misfit field := by
  rw [spec, Outcome.map_eq_error_iff, resolve_eq_error_iff]

end FieldEntry

/-! ### All entries -/

namespace Schema

variable {fields : Keyed FieldEntry} {fs ds : List FieldSpec} {s : Schema} {e : SchemaError}

/-- The declarations of all fields, in order of their names. -/
def Declarations (fields : Keyed FieldEntry) (ds : List FieldSpec) : Prop :=
  List.Forall₂ (fun e f => f.name = e.1 ∧ e.2.Declares f.kind) fields.entries ds

/-- The names of the declarations are those of the fields. -/
theorem Declarations.map_name (h : Declarations fields ds) :
    ds.map FieldSpec.name = fields.keys := by
  have hnames : List.Forall₂ (fun name e => name = Prod.fst e)
      (ds.map FieldSpec.name) fields.entries := by
    rw [List.forall₂_map_left_iff]
    exact h.flip.imp fun _ _ hf => hf.1
  rw [← List.forall₂_eq_eq_eq, Keyed.keys, List.forall₂_map_right_iff]
  exact hnames

theorem Declarations.nodup (h : Declarations fields ds) : (ds.map FieldSpec.name).Nodup := by
  rw [h.map_name]
  exact fields.ascending_keys.imp String.ne_of_lt

theorem ofEntries_eq_ok_iff :
    ofEntries fields = .ok s ↔ ∃ ds, Declarations fields ds ∧ ofSpecs ds = s := by
  unfold ofEntries
  simp only [Outcome.map_eq_ok_iff, Outcome.mapM_eq_ok_iff, FieldEntry.spec_eq_ok_iff]
  rfl

/-- The entry that is reported is the first unfit one. -/
theorem ofEntries_eq_error_iff :
    ofEntries fields = .error e ↔ ∃ before a after, fields.entries = before ++ a :: after ∧
      (∀ b ∈ before, b.2.Fits) ∧ ¬ a.2.Fits ∧ e = a.2.misfit a.1 := by
  have hfits : ∀ b : String × FieldEntry, (∃ f, b.2.spec b.1 = .ok f) ↔ b.2.Fits := by
    intro b
    rw [FieldEntry.fits_iff]
    simp only [FieldEntry.spec_eq_ok_iff]
    exact ⟨fun ⟨f, _, h⟩ => ⟨f.kind, h⟩, fun ⟨kind, h⟩ => ⟨⟨b.1, kind⟩, rfl, h⟩⟩
  unfold ofEntries
  rw [Outcome.map_eq_error_iff, Outcome.mapM_eq_error_iff]
  simp only [hfits, FieldEntry.spec_eq_error_iff]

/-- Entries make a schema when every one of them fits. -/
theorem exists_ofEntries_eq_ok_iff :
    (∃ s, ofEntries fields = .ok s) ↔ ∀ e ∈ fields.entries, e.2.Fits := by
  constructor
  · rintro ⟨s, hs⟩ e he
    obtain ⟨ds, hds, -⟩ := ofEntries_eq_ok_iff.mp hs
    obtain ⟨f, -, -, hf⟩ := Outcome.exists_of_mem_left hds he
    exact FieldEntry.fits_iff.mpr ⟨f.kind, hf⟩
  · intro h
    cases hs : ofEntries fields with
    | ok s => exact ⟨s, rfl⟩
    | error e =>
      obtain ⟨before, a, after, heq, -, hnot, -⟩ := ofEntries_eq_error_iff.mp hs
      exact absurd (h a (by simp [heq])) hnot

/-- An enumeration takes the values that its entry lists. -/
theorem get?_of_enumeration {name : String} {values : List String}
    (h : ofEntries fields = .ok s)
    (hentry : fields.get? name = some ⟨.enumeration, some values⟩) :
    s.get? name = some (.enumeration (Words.ofList values)) := by
  obtain ⟨ds, hds, rfl⟩ := ofEntries_eq_ok_iff.mp h
  obtain ⟨f, hf, rfl, hkind⟩ :=
    Outcome.exists_of_mem_left hds (Keyed.get?_eq_some_iff.mp hentry)
  rw [get?_ofSpecs_of_nodup hds.nodup]
  cases f with
  | mk name kind =>
    cases hkind
    exact hf

/-- The outcome is the one that the entries call for. -/
def Settles (fields : Keyed FieldEntry) : Except SchemaError Schema → Prop
  | .ok s =>
    -- the schema of the declarations in any order, where an enumeration takes the
    -- values that are listed for it, each once and in order of their bytes
    (∃ ds, Declarations fields ds ∧ ∀ fs : List FieldSpec, fs.Perm ds → ofSpecs fs = s) ∧
    ∀ name values, fields.get? name = some ⟨.enumeration, some values⟩ →
      ∃ allowed, s.get? name = some (.enumeration allowed) ∧
        (allowed.toList.map Text.bytes).Pairwise (· < ·) ∧
        ∀ v, v ∈ allowed.toList ↔ v ∈ values
  | .error e =>
    -- the unfit entry whose field has the least bytes
    ∃ a ∈ fields.entries, ¬ a.2.Fits ∧
      (∀ b ∈ fields.entries, ¬ b.2.Fits → b = a ∨ Text.bytes a.1 < Text.bytes b.1) ∧
      e = if a.2.kind = .enumeration then .emptyEnum a.1 else .unexpectedValues a.1

theorem settles_ofEntries (fields : Keyed FieldEntry) : Settles fields (ofEntries fields) := by
  cases hs : ofEntries fields with
  | ok s =>
    obtain ⟨ds, hds, rfl⟩ := ofEntries_eq_ok_iff.mp hs
    refine ⟨⟨ds, hds, fun fs hperm => ofSpecs_eq_of_perm hds.nodup hperm⟩, ?_⟩
    intro name values hentry
    refine ⟨Words.ofList values, get?_of_enumeration hs hentry, ?_, ?_⟩
    · exact Keyed.ascending_bytes_keys _
    · intro v
      exact Words.mem_toList_ofList
  | error e =>
    obtain ⟨before, a, after, heq, hbefore, hnot, he⟩ := ofEntries_eq_error_iff.mp hs
    refine ⟨a, by simp [heq], hnot, ?_, he⟩
    intro b hb hunfit
    rw [heq] at hb
    rcases List.mem_append.mp hb with hb | hb
    · exact absurd (hbefore b hb) hunfit
    · -- what stands behind the entry has a greater name
      rcases List.mem_cons.mp hb with rfl | hb
      · exact .inl rfl
      · have hascending := fields.ascending
        rw [heq, List.pairwise_append] at hascending
        have hlt := (List.pairwise_cons.mp hascending.2.1).1 b hb
        exact .inr (Text.bytes_lt_bytes_iff.mpr hlt)

/-! ### Documents -/

/-- The document reads as entries for these fields. -/
def Holds (text : String) (fields : Keyed FieldEntry) : Prop :=
  (Toml.readDocument? text.toList).bind FieldEntry.ofDocument? = some fields

theorem ofToml_eq_of_holds {text : String} (h : Holds text fields) :
    ofToml text = ofEntries fields := by
  unfold ofToml
  rw [h]

/-- **Schema documents.** A document makes a schema exactly when each of its
    entries fits together. The schema is that of the declarations of all fields in
    any order. Of unfit entries the one whose field has the least bytes is
    reported, by what it is. -/
theorem ofToml_of_holds {text : String} {fields : Keyed FieldEntry} (h : Holds text fields) :
    ((∃ s, ofToml text = .ok s) ↔ ∀ e ∈ fields.entries, e.2.Fits) ∧
    Settles fields (ofToml text) := by
  rw [ofToml_eq_of_holds h]
  exact ⟨exists_ofEntries_eq_ok_iff, settles_ofEntries fields⟩

/-- Three unfit entries, of which the one with the least name stands last: an
    enumeration without values comes before a number with an empty list. -/
theorem ofToml_of_holds_unfit :
    let text := "[fields]\nsize = [\"number\", []]\n" ++
      "color = [\"enum\", [\"red\", \"blue\", \"red\"]]\n" ++
      "[fields.tier]\nkind = \"string\"\nvalues = [\"x\"]\n" ++
      "[fields.brand]\nkind = \"enum\"\nvalues = []\n"
    let fields := Keyed.ofList
      [("size", (⟨.number, some []⟩ : FieldEntry)),
       ("color", ⟨.enumeration, some ["red", "blue", "red"]⟩), ("tier", ⟨.string, some ["x"]⟩),
       ("brand", ⟨.enumeration, some []⟩)]
    Holds text fields ∧
    ((∃ s, ofToml text = .ok s) ↔ ∀ e ∈ fields.entries, e.2.Fits) ∧
    Settles fields (ofToml text) := by
  intro text fields
  have h : Holds text fields := by
    unfold Holds
    decide +kernel
  exact ⟨h, ofToml_of_holds h⟩

end Schema

end ProductSegments
