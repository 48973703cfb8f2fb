import ProductSegments.Schema.Entry
import ProductSegments.Toml.Reader

/-! # Schema documents

  A schema document is a TOML document whose table `fields` binds each field
  name to its entry; without the table the schema is empty. Other tables and
  keys do not count, but the numbers in them have to stand for values. An entry
  is a table with the key `kind` and, if need be, the key `values`, or an array
  of the two in this order, behind which anything may follow.

  The whole document is decoded before any entry is resolved, so a value of the
  wrong shape is reported before an entry whose parts do not fit together.
-/

namespace ProductSegments

namespace Toml

/-- Whether a value is an empty table or an empty array. -/
def isEmptyList : Toml → Bool
  | .array [] => true
  | .table _ [] => true
  | _ => false

/-- The items of an array. Tables under headers in double brackets make an
    array of tables. -/
def items? : Toml → Option (List Toml)
  | .array vs => some vs
  | .tables ts => some (ts.map (.table .written))
  | _ => none

/-- The string that a value is. -/
def string? : Toml → Option String
  | .string s => some s
  | _ => none

/-- A list of strings. -/
def strings? (v : Toml) : Option (List String) := v.items?.bind (·.mapM string?)

end Toml

namespace KindName

/-- The kind that a value names: the name itself, or a table that binds nothing
    but the name, and that to nothing. -/
def ofToml? : Toml → Option KindName
  | .string s => ofName? s
  | .table _ [(s, v)] => if v.isEmptyList then ofName? s else none
  | _ => none

end KindName

namespace FieldEntry

/-- The entry of a kind and of listed values, if there are any. -/
def ofParts? (kind : Toml) (values? : Option Toml) : Option FieldEntry := do
  let kind ← KindName.ofToml? kind
  match values? with
  | none => return { kind }
  | some v => return { kind, values? := some (← v.strings?) }

/-- The entry that a value describes. Behind the values of an array anything
    may follow. -/
def ofToml? : Toml → Option FieldEntry
  | .table _ es => do
    guard (es.all fun e => e.1 = "kind" ∨ e.1 = "values")
    ofParts? (← es.lookup "kind") (es.lookup "values")
  | v => do
    match ← v.items? with
    | [] => none
    | kind :: rest => ofParts? kind rest.head?

/-- The entries of all fields of a document. -/
def ofDocument? (document : Toml.Entries) : Option (Keyed FieldEntry) := do
  guard (document.all fun e => e.1 = "fields" ∨ e.2.hasValues)
  match document.lookup "fields" with
  | none => return ∅
  | some (.table _ fields) =>
    return Keyed.ofList (← fields.mapM fun f => (ofToml? f.2).map (f.1, ·))
  | some _ => none

end FieldEntry

namespace Schema

/-- The schema that a TOML document describes. -/
def ofToml (text : String) : Except SchemaError Schema :=
  match (Toml.readDocument? text.toList).bind FieldEntry.ofDocument? with
  | none => .error .notDocument
  | some fields => ofEntries fields

/-- The schema that a file with the given bytes describes, `none` standing for
    a file that is not there. -/
def ofFile (bytes? : Option ByteArray) : Except SchemaError Schema :=
  match bytes?.bind String.fromUTF8? with
  | none => .error .unreadable
  | some text => ofToml text

end Schema

end ProductSegments
