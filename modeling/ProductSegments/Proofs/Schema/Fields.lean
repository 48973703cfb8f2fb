import ProductSegments.Proofs.Keyed.Repeats
import ProductSegments.Proofs.Rule.Compilation
import ProductSegments.Proofs.Rule.Grammar
import ProductSegments.Proofs.Schema.Declarations
import ProductSegments.Proofs.Text.ByteOrder
import ProductSegments.Schema.Declaration

/-! # The fields of a built schema

  A schema keeps each name twice, as a key and in the field that was declared last
  under it. The two go together through every declaration, so a field that is found
  under a name has this name, and so has every comparison that is checked against
  the field.

  - `Declaration.Asks`: the kind that a declaration asks for.
  - `Schema.registry`: the fields that are declared, the last of each name.
  - `Schema.DeclaredBy`: what declarations make of a schema.
  - `Schema.fields_of_declarations`: the schema of any declarations.
-/

namespace ProductSegments

/-! ### What a declaration asks for -/

/-- The kind is the one that the declaration asks for. -/
inductive Declaration.Asks : Declaration → FieldKind → Prop where
  /-- Numbers. -/
  | number (name : String) : Asks (.number name) .number
  /-- `true` and `false`. -/
  | boolean (name : String) : Asks (.boolean name) .boolean
  /-- Any text. -/
  | string (name : String) : Asks (.string name) .string
  /-- The listed values, each once and in order of their bytes. -/
  | enumeration (name : String) {values : List String} {allowed : Words}
      (hascending : (allowed.toList.map Text.bytes).Pairwise (· < ·))
      (hvalues : ∀ v, v ∈ allowed.toList ↔ v ∈ values) :
      Asks (.enumeration name values) (.enumeration allowed)
  /-- The given kind. -/
  | field (name : String) (kind : FieldKind) : Asks (.field name kind) kind

/-- A declaration declares the kind that it asks for. -/
theorem Declaration.asks_iff {d : Declaration} {kind : FieldKind} :
    d.Asks kind ↔ d.kind = kind := by
  constructor
  · intro h
    cases h with
    | number => rfl
    | boolean => rfl
    | string => rfl
    | field => rfl
    | enumeration name hascending hvalues =>
      apply congrArg FieldKind.enumeration
      apply Words.eq_of_mem_toList_iff
      intro v
      rw [Words.mem_toList_ofList, hvalues]
  · intro h
    rw [← h]
    cases d with
    | number => exact .number _
    | boolean => exact .boolean _
    | string => exact .string _
    | field => exact .field _ _
    | enumeration name values =>
      exact .enumeration name (Keyed.ascending_bytes_keys _) fun _ => Words.mem_toList_ofList

namespace Schema

variable {ds : List Declaration} {s : Schema} {name : String}

/-! ### Looking up fields -/

theorem contains_iff_exists_spec? : s.contains name = true ↔ ∃ f, s.spec? name = some f :=
  Option.isSome_iff_exists

theorem map_name_specs (s : Schema) : s.specs.map FieldSpec.name = s.keys := by
  unfold specs keys Keyed.values Keyed.keys
  rw [List.map_map]
  exact List.map_congr_left s.name_eq

/-! ### The schema of declarations -/

/-- Every field as it was declared last, name and kind, under its name. -/
def registry (ds : List Declaration) : Keyed FieldSpec :=
  ds.foldl (fun kept d => kept.insert d.name d.spec) ∅

/-- The schema keeps the fields that are declared. -/
theorem fields_ofDeclarations (ds : List Declaration) :
    (ofDeclarations ds).fields = registry ds := by
  unfold ofDeclarations
  rw [fields_ofSpecs, List.foldl_map]
  rfl

theorem contains_ofDeclarations_iff :
    (ofDeclarations ds).contains name = true ↔ name ∈ ds.map Declaration.name := by
  unfold contains
  rw [fields_ofDeclarations, Keyed.contains_iff, registry, Keyed.mem_keys_foldl_insert]
  exact or_iff_left List.not_mem_nil

theorem size_ofDeclarations (ds : List Declaration) :
    (ofDeclarations ds).size = (ds.map Declaration.name).dedup.length := by
  unfold size
  rw [fields_ofDeclarations]
  exact Keyed.size_foldl_insert Declaration.name Declaration.spec ∅ ds

/-- Under a name there is the last declaration of it. -/
theorem spec?_ofDeclarations_eq_some_iff {f : FieldSpec} :
    (ofDeclarations ds).spec? name = some f ↔
      ∃ d, IsLast Declaration.name ds d ∧ d.name = name ∧ d.spec = f := by
  unfold spec?
  rw [fields_ofDeclarations]
  exact Keyed.get?_foldl_insert_empty_eq_some_iff

/-- The schema has the fields that are declared, each as it is declared last. -/
structure DeclaredBy (ds : List Declaration) (s : Schema) : Prop where
  /-- The names are listed in strictly ascending order of their bytes. -/
  ascending : (s.specs.map fun f => Text.bytes f.name).Pairwise (· < ·)
  /-- A field is listed when it is found under its name. -/
  mem_specs_iff : ∀ f, f ∈ s.specs ↔ s.spec? f.name = some f
  /-- Under every name that is declared there is a field, and under no other. -/
  exists_spec?_iff : ∀ name, (∃ f, s.spec? name = some f) ↔ ∃ d ∈ ds, d.name = name
  /-- The field under a name has this name for its own and the kind that the last
      declaration of the name asks for. -/
  spec?_eq_some_iff : ∀ name f, s.spec? name = some f ↔
    f.name = name ∧ ∃ d, IsLast Declaration.name ds d ∧ d.name = name ∧ d.Asks f.kind
  /-- The schema contains the names under which there is a field. -/
  contains_iff : ∀ name, s.contains name = true ↔ ∃ f, s.spec? name = some f
  /-- There are as many fields as different names. -/
  size_eq : s.size = (ds.map Declaration.name).dedup.length
  /-- The fields are listed as they are kept, names and kinds together. -/
  specs_eq : s.specs = (registry ds).values
  /-- They are found as they are kept. -/
  spec?_eq : ∀ name, s.spec? name = (registry ds).get? name

theorem declaredBy_ofDeclarations (ds : List Declaration) : DeclaredBy ds (ofDeclarations ds) := by
  refine {
    ascending := ?_
    mem_specs_iff := fun f => mem_specs_iff
    exists_spec?_iff := fun name => ?_
    spec?_eq_some_iff := fun name f => ?_
    contains_iff := fun name => contains_iff_exists_spec?
    size_eq := size_ofDeclarations ds
    specs_eq := congrArg Keyed.values (fields_ofDeclarations ds)
    spec?_eq := fun name => congrArg (Keyed.get? · name) (fields_ofDeclarations ds) }
  · have hbytes := (ofDeclarations ds).fields.ascending_bytes_keys
    show ((ofDeclarations ds).specs.map (Text.bytes ∘ FieldSpec.name)).Pairwise (· < ·)
    rw [← List.map_map, map_name_specs]
    exact hbytes
  · rw [← contains_iff_exists_spec?, contains_ofDeclarations_iff, List.mem_map]
  · constructor
    · intro h
      obtain ⟨d, hlast, hname, hspec⟩ := spec?_ofDeclarations_eq_some_iff.mp h
      refine ⟨name_of_spec? h, d, hlast, hname, Declaration.asks_iff.mpr ?_⟩
      rw [← hspec]
      rfl
    · intro ⟨hname, d, hlast, hd, hasks⟩
      refine spec?_ofDeclarations_eq_some_iff.mpr ⟨d, hlast, hd, ?_⟩
      exact FieldSpec.ext (hd.trans hname.symm) (Declaration.asks_iff.mp hasks)

/-! ### Checking against the schema -/

/-- A rule line that is checked gives a comparison on the field that is written in it,
    by the name that the schema has for it. -/
theorem exists_parts_of_compileLine {line : String} {c : Comparison}
    (h : Rule.compileLine s line = .ok c) :
    ∃ p : Rule.LineParts, p.text = line ∧ c.field = Text.trimmed p.before ∧
      ∃ f, s.spec? (Text.trimmed p.before) = some f ∧ c.field = f.name := by
  obtain ⟨t, ht, hc⟩ := Rule.compileLine_eq_ok_iff.mp h
  obtain ⟨kind, hkind, hfield, -⟩ := Rule.comparison?_eq_ok_iff.mp hc
  obtain ⟨p, hp, htokens⟩ := Rule.exists_parts_of_tokenizeLine ht
  -- what is looked up is the field as it is written, without the blanks around it
  have hwritten : t.field = Text.trimmed p.before := by
    rw [← htokens]
    rfl
  rw [hwritten] at hkind hfield
  exact ⟨p, hp, hfield, ⟨_, kind⟩, spec?_eq_some_iff.mpr ⟨hkind, rfl⟩, hfield⟩

/-- **Declared fields.** The schema of any declarations lists each declared name once,
    in order of the bytes. Under a declared name, and under no other, it has a field of
    this name, whose kind is that of the last declaration of the name. A comparison
    that is checked against the schema is on the field whose name is written in the
    rule line, by the name that is kept in the field. -/
theorem fields_of_declarations (ds : List Declaration) :
    DeclaredBy ds (ofDeclarations ds) ∧
    ∀ line c, Rule.compileLine (ofDeclarations ds) line = .ok c →
      ∃ p : Rule.LineParts, p.text = line ∧ c.field = Text.trimmed p.before ∧
        ∃ f, (registry ds).get? (Text.trimmed p.before) = some f ∧ c.field = f.name := by
  have hdeclared := declaredBy_ofDeclarations ds
  refine ⟨hdeclared, ?_⟩
  intro line c h
  obtain ⟨p, hp, hwritten, f, hf, hname⟩ := exists_parts_of_compileLine h
  rw [hdeclared.spec?_eq] at hf
  exact ⟨p, hp, hwritten, f, hf, hname⟩

/-- A number becomes an enumeration, whose values are listed twice, and a rule line
    names it between blanks. -/
theorem fields_of_declarations_after_change :
    let ds : List Declaration := [.number "tier", .string "size", .boolean "été",
      .enumeration "tier" ["silver", "gold", "silver"], .field "size" .number]
    let line := "\t tier>=  silver "
    let c : Comparison := ⟨"tier", .ge, .string "silver"⟩
    DeclaredBy ds (ofDeclarations ds) ∧
    Rule.compileLine (ofDeclarations ds) line = .ok c ∧
    ∃ p : Rule.LineParts, p.text = line ∧ c.field = Text.trimmed p.before ∧
      ∃ f, (registry ds).get? (Text.trimmed p.before) = some f ∧ c.field = f.name := by
  intro ds line c
  have h : Rule.compileLine (ofDeclarations ds) line = .ok c := by decide +kernel
  obtain ⟨hdeclared, hchecked⟩ := fields_of_declarations ds
  exact ⟨hdeclared, h, hchecked line c h⟩

end Schema

end ProductSegments
