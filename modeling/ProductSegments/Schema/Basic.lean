import ProductSegments.Keyed.Lemmas

/-! # Schemas

  A schema is the closed set of fields that rules may name, with the kind of
  literal that each takes. Every field is kept under its name and holds this
  name itself, which is part of the type.

  - `Schema.spec?` looks up a field by its name, `Schema.get?` the kind of a field.
  - `Schema.specs` lists the fields in order of their names.
-/

namespace ProductSegments

/-- What literals a field takes. -/
inductive FieldKind where
  /-- Numbers. -/
  | number
  /-- `true` and `false`. -/
  | boolean
  /-- Any text, as written. -/
  | string
  /-- One of a closed set of texts. -/
  | enumeration (allowed : Words)
deriving DecidableEq

/-- The text of a kind for people. -/
def FieldKind.display : FieldKind → String
  | .number => "number"
  | .boolean => "boolean"
  | .string => "string"
  | .enumeration allowed => "enum(" ++ ", ".intercalate allowed.toList ++ ")"

/-- A field with its kind. -/
@[ext] structure FieldSpec where
  /-- The name that rules use. -/
  name : String
  /-- The kind of its literals. -/
  kind : FieldKind
deriving DecidableEq

/-- The fields that rules may name. -/
@[ext] structure Schema where
  /-- The fields under their names. -/
  fields : Keyed FieldSpec
  /-- Every field is kept under the name that it holds. -/
  name_eq : ∀ e ∈ fields.entries, e.2.name = e.1
deriving DecidableEq

namespace Schema

/-- The schema without fields. -/
def empty : Schema where
  fields := ∅
  name_eq := fun _ h => nomatch h

instance : EmptyCollection Schema := ⟨empty⟩

/-- The number of fields. -/
def size (s : Schema) : Nat := s.fields.size

/-- Whether there are no fields. -/
def isEmpty (s : Schema) : Bool := s.fields.isEmpty

/-- The names of the fields in ascending order. -/
def keys (s : Schema) : List String := s.fields.keys

/-- The fields in order of their names. -/
def specs (s : Schema) : List FieldSpec := s.fields.values

/-! ### Looking up -/

/-- The field with exactly the given name. -/
def spec? (s : Schema) (name : String) : Option FieldSpec := s.fields.get? name

/-- The kind of the field with exactly the given name. -/
def get? (s : Schema) (name : String) : Option FieldKind := (s.spec? name).map FieldSpec.kind

/-- Whether there is a field with exactly the given name. -/
def contains (s : Schema) (name : String) : Bool := s.fields.contains name

variable {s : Schema} {name : String} {f : FieldSpec} {kind : FieldKind}

/-- A field that is found under a name holds this name. -/
theorem name_of_spec? (h : s.spec? name = some f) : f.name = name :=
  s.name_eq (name, f) (Keyed.get?_eq_some_iff.mp h)

theorem spec?_eq_some_iff : s.spec? name = some f ↔ s.get? name = some f.kind ∧ f.name = name := by
  unfold get?
  rw [Option.map_eq_some_iff]
  constructor
  · intro h
    exact ⟨⟨f, h, rfl⟩, name_of_spec? h⟩
  · intro ⟨⟨g, hg, hkind⟩, hname⟩
    rw [← FieldSpec.ext ((name_of_spec? hg).trans hname.symm) hkind]
    exact hg

theorem get?_eq_some_iff : s.get? name = some kind ↔ s.spec? name = some ⟨name, kind⟩ := by
  rw [spec?_eq_some_iff, and_iff_left rfl]

theorem get?_eq_none_iff : s.get? name = none ↔ s.spec? name = none := Option.map_eq_none_iff

theorem mem_keys_iff : name ∈ s.keys ↔ ∃ kind, s.get? name = some kind := by
  constructor
  · intro h
    obtain ⟨f, hf⟩ := Keyed.mem_keys_iff.mp h
    exact ⟨f.kind, (spec?_eq_some_iff.mp hf).1⟩
  · intro ⟨kind, hkind⟩
    exact Keyed.mem_keys_iff.mpr ⟨_, get?_eq_some_iff.mp hkind⟩

/-- A field is listed when it is found under its name. -/
theorem mem_specs_iff : f ∈ s.specs ↔ s.spec? f.name = some f := by
  unfold specs spec? Keyed.values
  rw [Keyed.get?_eq_some_iff, List.mem_map]
  constructor
  · intro ⟨e, he, hf⟩
    rw [← hf, s.name_eq e he]
    exact he
  · intro h
    exact ⟨_, h, rfl⟩

end Schema

end ProductSegments
