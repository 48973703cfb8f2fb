import ProductSegments.Instant.Rfc3339
import ProductSegments.Json.Reader
import ProductSegments.Product.Basic

/-! # Reading products

  A product stands in JSON as an object or as the list of its values in the
  order of `fieldNames`. The list is read as the object that gives each value
  its name, so the two forms agree by construction.

  In an object, members that are not fields of a product are ignored whatever
  they hold, and no field may occur twice. The identifier and the title are
  required; every other field has a default.
-/

namespace ProductSegments

namespace Product

/-- The names of the fields in the order in which products are written. -/
def fieldNames : List String :=
  ["id", "title", "price", "stock_status", "stock_quantity", "category", "tags", "on_sale",
   "created_at"]

/-! ### Fields -/

/-- An identifier: an integer of 64 bits without sign. -/
def readId : Json → Option UInt64
  | .integer false n => if n < 2 ^ 64 then some (UInt64.ofNat n) else none
  | _ => none

/-- A quantity: an integer of 64 bits with sign. Minus zero is not an integer. -/
def readQuantity : Json → Option Int64
  | .integer false n => if n < 2 ^ 63 then some (Int64.ofInt n) else none
  | .integer true n => if 0 < n ∧ n ≤ 2 ^ 63 then some (Int64.ofInt (-n)) else none
  | _ => none

/-- A text. -/
def readText : Json → Option String
  | .string s? => s?
  | _ => none

/-- A truth value. -/
def readBoolean : Json → Option Bool
  | .boolean b => some b
  | _ => none

/-- A list of texts. -/
def readTexts : Json → Option (List String)
  | .array items => items.mapM readText
  | _ => none

/-- An instant as text. -/
def readInstant (j : Json) : Option Instant := (readText j).bind fun s => Instant.read? s.toList

/-- A value that may be null. -/
def readOptional {α : Type} (read : Json → Option α) : Json → Option (Option α)
  | .null => some none
  | j => (read j).map some

/-! ### Products -/

/-- A field that may be absent, with its default. -/
def readField {α : Type} (ms : List (String × Json)) (name : String) (default : α)
    (read : Json → Option α) : Option α :=
  match ms.lookup name with
  | none => some default
  | some j => read j

/-- The product with the given members. -/
def ofMembers? (ms : List (String × Json)) : Option Product := do
  guard ((ms.map (·.1)).filter (· ∈ fieldNames)).Nodup
  return {
    id := ← readId (← ms.lookup "id")
    title := ← readText (← ms.lookup "title")
    price := ← readField ms "price" none (readOptional Json.toDouble?)
    stockStatus := ← readField ms "stock_status" none (readOptional readText)
    stockQuantity := ← readField ms "stock_quantity" 0 readQuantity
    category := ← readField ms "category" none (readOptional readText)
    tags := ← readField ms "tags" [] readTexts
    onSale := ← readField ms "on_sale" false readBoolean
    createdAt := ← readField ms "created_at" none (readOptional readInstant) }

/-- The members of an object, if all of its keys are texts. -/
def textKeys? (ms : List (Option String × Json)) : Option (List (String × Json)) :=
  ms.mapM fun m => m.1.map fun key => (key, m.2)

/-- The product that a JSON value describes. -/
def ofJson? : Json → Option Product
  | .object ms => textKeys? ms >>= ofMembers?
  | .array items =>
    if items.length ≤ fieldNames.length then ofMembers? (fieldNames.zip items) else none
  | _ => none

end Product

end ProductSegments
