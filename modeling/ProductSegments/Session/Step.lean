import ProductSegments.Catalog.Basic
import ProductSegments.Schema.Document
import ProductSegments.Segment.Evaluate

/-! # Steps of a session

  What a session can be asked to do, and what it replies. Some steps change the
  session, the others only look at it; both may fail.
-/

namespace ProductSegments

/-! ### Sources

  Where a session takes its schema and its catalog from. Loading a source gives the
  whole schema or catalog, or an error and nothing.
-/

-- as for powers, the equality of byte arrays is the core one
attribute [instance (high)] ByteArray.instDecidableEq

/-- Where a schema comes from. -/
inductive SchemaSource where
  /-- The schema of the product catalog. -/
  | catalog
  /-- Declarations, the later ones replacing the earlier. -/
  | declarations (fs : List FieldSpec)
  /-- A TOML document. -/
  | document (text : String)
deriving DecidableEq

/-- The schema of a source. -/
def SchemaSource.load : SchemaSource → Except SchemaError Schema
  | .catalog => .ok Schema.catalog
  | .declarations fs => .ok (Schema.ofSpecs fs)
  | .document text => Schema.ofToml text

/-- Where a catalog comes from. -/
inductive CatalogSource where
  /-- A JSON text. -/
  | json (text : String)
  /-- The bytes of a JSON text. -/
  | jsonBytes (bytes : ByteArray)
  /-- The products themselves. -/
  | products (ps : List Product)
deriving DecidableEq

/-- The catalog of a source. -/
def CatalogSource.load : CatalogSource → Except CatalogError Catalog
  | .json text => Catalog.ofText text
  | .jsonBytes bytes => Catalog.ofBytes bytes
  | .products ps => .ok ⟨ps⟩

/-! ### Steps -/

/-- A step of a session. -/
inductive Step where
  /-- Add a declaration to the builder. -/
  | declare (f : FieldSpec)
  /-- Make the builder's declarations the schema and start a new builder. -/
  | build
  /-- Take the schema of a source. -/
  | useSchema (source : SchemaSource)
  /-- Look up a field of the schema. -/
  | lookUpField (name : String)
  /-- Take the catalog of a source. -/
  | loadCatalog (source : CatalogSource)
  /-- Show the catalog. -/
  | showCatalog
  /-- Show the segmenter of schema and catalog. -/
  | showSegmenter
  /-- Compile rule text to the predicate. -/
  | compile (rules : String)
  /-- Fold comparisons to the predicate. -/
  | fold (cs : List Comparison)
  /-- Start with a predicate without clauses. -/
  | clearPredicate
  /-- Put a clause on a field of the predicate. -/
  | insertClause (field : String) (c : Clause)
  /-- Look up the clause on a field. -/
  | lookUpClause (field : String)
  /-- Show the predicate. -/
  | showPredicate
  /-- Ask whether a product meets the predicate. -/
  | testProduct (product : Product)
  /-- Ask the catalog for the products of the predicate. -/
  | find
  /-- Evaluate rule text on the catalog. -/
  | evaluate (rules : String)
  /-- Evaluate the predicate on the catalog. -/
  | evaluatePredicate
  /-- Evaluate rule text on a store that fails. -/
  | evaluateBroken (store : BrokenStore) (rules : String)
deriving DecidableEq

/-- Whether a step only looks at the session. -/
def Step.onlyReads : Step → Bool
  | .lookUpField _ | .showCatalog | .showSegmenter | .lookUpClause _ | .showPredicate
  | .testProduct _ | .find | .evaluate _ | .evaluatePredicate | .evaluateBroken _ _ => true
  | .declare _ | .build | .useSchema _ | .loadCatalog _ | .compile _ | .fold _ | .clearPredicate
  | .insertClause _ _ => false

/-! ### Replies -/

/-- What a step replies when it succeeds. -/
inductive Reply where
  /-- Nothing but that it is done. -/
  | done
  /-- A schema. -/
  | schema (s : Schema)
  /-- A field of the schema, if there is one. -/
  | field (f? : Option FieldSpec)
  /-- A catalog. -/
  | catalog (c : Catalog)
  /-- The text of a segmenter. -/
  | segmenter (text : String)
  /-- A predicate. -/
  | predicate (p : Predicate)
  /-- A predicate with the clause that was replaced in it, if any. -/
  | inserted (replaced? : Option Clause) (p : Predicate)
  /-- The clause on a field, if there is one. -/
  | clause (c? : Option Clause)
  /-- An answer to a question. -/
  | answer (b : Bool)
  /-- The identifiers of products. -/
  | found (ids : List UInt64)
  /-- The result of an evaluation. -/
  | result (r : SegmentResult)
deriving DecidableEq

/-- Why a step failed. -/
inductive StepError where
  /-- A schema could not be read. -/
  | schema (e : SchemaError)
  /-- A catalog could not be read. -/
  | catalog (e : CatalogError)
  /-- Rules were rejected. -/
  | rule (e : RuleError)
  /-- An evaluation failed. -/
  | evaluation (e : EvaluationError)
deriving DecidableEq

end ProductSegments
