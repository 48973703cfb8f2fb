import ProductSegments.Schema.Declaration

/-! # Schema entries

  How a schema document describes a field: by the name of its kind and, for an
  enumeration, its values. Entries are resolved in order of the field names
  and the first one that does not fit together is reported:

  - an enumeration lists at least one value, in any order, repetitions allowed;
  - a field of another kind lists no values at all, not even an empty list.
-/

namespace ProductSegments

/-- The kinds that a schema document names. -/
inductive KindName where
  /-- `number`. -/
  | number
  /-- `boolean`. -/
  | boolean
  /-- `string`. -/
  | string
  /-- `enum`. -/
  | enumeration
deriving DecidableEq

/-- The kind with exactly the given name. -/
def KindName.ofName? : String → Option KindName
  | "number" => some .number
  | "boolean" => some .boolean
  | "string" => some .string
  | "enum" => some .enumeration
  | _ => none

/-- What a schema document says about a field. -/
structure FieldEntry where
  /-- The name of the kind. -/
  kind : KindName
  /-- The listed values, if the entry lists any. -/
  values? : Option (List String) := none
deriving DecidableEq

/-- Why a schema could not be read. -/
inductive SchemaError where
  /-- There is no such file, or it holds no text. -/
  | unreadable
  /-- The text is no TOML document of the right shape. -/
  | notDocument
  /-- An enumeration lists no values. -/
  | emptyEnum (field : String)
  /-- A field that is no enumeration lists values. -/
  | unexpectedValues (field : String)
deriving DecidableEq

/-- The message of a schema error. -/
def SchemaError.message : SchemaError → String
  | .unreadable => "the schema file cannot be read"
  | .notDocument => "invalid schema configuration: not a table of fields"
  | .emptyEnum field => "enum field '" ++ field ++ "' declares no values"
  | .unexpectedValues field =>
    "field '" ++ field ++ "' is not an enum and cannot declare values"

namespace FieldEntry

/-- The kind that an entry describes, if its parts fit together. -/
def resolve (field : String) : FieldEntry → Except SchemaError FieldKind
  | ⟨.enumeration, some (v :: vs)⟩ => .ok (.enumeration (Words.ofList (v :: vs)))
  | ⟨.enumeration, _⟩ => .error (.emptyEnum field)
  | ⟨_, some _⟩ => .error (.unexpectedValues field)
  | ⟨.number, none⟩ => .ok .number
  | ⟨.boolean, none⟩ => .ok .boolean
  | ⟨.string, none⟩ => .ok .string

end FieldEntry

/-- The declaration of a field with the given entry. -/
def FieldEntry.spec (field : String) (entry : FieldEntry) : Except SchemaError FieldSpec :=
  (entry.resolve field).map fun kind => ⟨field, kind⟩

/-- The schema that entries describe, or the error of the first field, in order
    of their names, that has one. -/
def Schema.ofEntries (fields : Keyed FieldEntry) : Except SchemaError Schema :=
  (fields.entries.mapM fun e => FieldEntry.spec e.1 e.2).map Schema.ofSpecs

end ProductSegments
