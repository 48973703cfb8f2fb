import ProductSegments.Catalog.Reader
import ProductSegments.Json.Text
import ProductSegments.Predicate.Basic

/-! # Catalogs

  A catalog is the list of products that segments are selected from. It is
  read from JSON text, which is an array of products, and searched from front
  to back.
-/

namespace ProductSegments

/-- The products of a shop, in their order, repetitions included. -/
structure Catalog where
  /-- The products. -/
  products : List Product := []
deriving DecidableEq

/-- Why a catalog could not be read. -/
inductive CatalogError where
  /-- The text is not JSON. -/
  | notJson
  /-- The JSON value is not an array of products. -/
  | notProducts
deriving DecidableEq

/-- The message of a catalog error. -/
def CatalogError.message : CatalogError → String
  | .notJson => "invalid product catalog: not a JSON text"
  | .notProducts => "invalid product catalog: not an array of products"

namespace Catalog

/-- The catalog that a JSON value describes. -/
def ofJson? : Json → Option Catalog
  | .array items => (items.mapM Product.ofJson?).map (⟨·⟩)
  | _ => none

/-- Reads a catalog from the symbols of a text. -/
def ofSymbols (symbols : List Text.Symbol) : Except CatalogError Catalog :=
  match Json.read? symbols with
  | none => .error .notJson
  | some j => match ofJson? j with
    | none => .error .notProducts
    | some c => .ok c

/-- Reads a catalog from text. -/
def ofText (text : String) : Except CatalogError Catalog := ofSymbols (Text.symbols text)

/-- Reads a catalog from the bytes of a text. -/
def ofBytes (bytes : ByteArray) : Except CatalogError Catalog := ofSymbols (Text.decode bytes)

/-- The products that meet a predicate, in catalog order. -/
def select (c : Catalog) (p : Predicate) : List Product := c.products.filter p.matchesProduct

end Catalog

/-! ### Writing

  A product is written as an object with all of its fields in order, unset ones as
  null.
-/

/-- The JSON value of a product. -/
def Product.toJson (p : Product) : Json := Json.ofMembers
  [("id", .integer false p.id.toNat),
   ("title", .text p.title),
   ("price", p.price.elim .null Json.ofDouble),
   ("stock_status", .optionalText p.stockStatus),
   ("stock_quantity", .ofInt p.stockQuantity.toInt),
   ("category", .optionalText p.category),
   ("tags", .array (p.tags.map .text)),
   ("on_sale", .boolean p.onSale),
   ("created_at", .optionalText (p.createdAt.map fun i => String.ofList i.text))]

/-- The JSON value of a list of products. -/
def Product.listToJson (ps : List Product) : Json := .array (ps.map Product.toJson)

/-- The JSON value of a catalog. -/
def Catalog.toJson (c : Catalog) : Json := Product.listToJson c.products

end ProductSegments
