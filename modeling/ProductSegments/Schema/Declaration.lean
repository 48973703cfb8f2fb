import ProductSegments.Schema.Basic

/-! # Declarations

  A schema is built by declaring fields one by one, a later declaration of a name
  replacing an earlier one. There is a form of declarations for each kind, and one
  for a kind that is given as it is. An enumeration lists its values in any order,
  with repetitions, or none at all.
-/

namespace ProductSegments

namespace Schema

/-- Adds a declaration; an earlier one of the same name is replaced. -/
def declare (s : Schema) (f : FieldSpec) : Schema where
  fields := s.fields.insert f.name f
  name_eq := by
    intro e he
    rcases Keyed.mem_insertEntry he with rfl | he
    · rfl
    · exact s.name_eq e he

/-- The schema of a list of declarations. -/
def ofSpecs (fs : List FieldSpec) : Schema := fs.foldl declare ∅

end Schema

/-- A declaration of a field. -/
inductive Declaration where
  /-- A field of numbers. -/
  | number (name : String)
  /-- A field of `true` and `false`. -/
  | boolean (name : String)
  /-- A field of any text. -/
  | string (name : String)
  /-- A field of one of the listed texts. -/
  | enumeration (name : String) (values : List String)
  /-- A field of the given kind. -/
  | field (name : String) (kind : FieldKind)
deriving DecidableEq

namespace Declaration

/-- The name that is declared. -/
def name : Declaration → String
  | .number name | .boolean name | .string name | .enumeration name _ | .field name _ => name

/-- The kind that is declared. -/
def kind : Declaration → FieldKind
  | .number _ => .number
  | .boolean _ => .boolean
  | .string _ => .string
  | .enumeration _ values => .enumeration (Words.ofList values)
  | .field _ kind => kind

/-- The field that is declared. -/
def spec (d : Declaration) : FieldSpec := ⟨d.name, d.kind⟩

end Declaration

namespace Schema

/-- The schema of declarations in any of their forms. -/
def ofDeclarations (ds : List Declaration) : Schema := ofSpecs (ds.map Declaration.spec)

/-- The schema of the product catalog. -/
def catalog : Schema := ofDeclarations
  [.number "price", .number "stock_quantity", .boolean "on_sale", .string "category",
   .string "title", .string "tags",
   .enumeration "stock_status" ["instock", "outofstock", "onbackorder"]]

end Schema

end ProductSegments
