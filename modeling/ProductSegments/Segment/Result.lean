import ProductSegments.Catalog.Basic

/-! # Segment results

  What an evaluation selects. The status tells a segment without rules, which
  is the whole catalog, from one with rules, which may match nothing.
-/

namespace ProductSegments

/-- How an evaluation ended. -/
inductive Status where
  /-- There are no rules, so every product is selected. -/
  | unfiltered
  /-- There are rules, and products that meet them. -/
  | matched
  /-- There are rules, and no product meets them. -/
  | noMatches
deriving DecidableEq

namespace Status

/-- The text of a status for people. -/
def display : Status → String
  | .unfiltered => "unfiltered"
  | .matched => "matched"
  | .noMatches => "no matches"

/-- The name of a status in JSON. -/
def jsonName : Status → String
  | .unfiltered => "unfiltered"
  | .matched => "matched"
  | .noMatches => "no_matches"

end Status

/-- The products of a segment with the status of their evaluation. -/
structure SegmentResult where
  /-- How the evaluation ended. -/
  status : Status
  /-- The selected products in store order. -/
  products : List Product
deriving DecidableEq

namespace SegmentResult

/-- The result of a predicate for which a store found the given products. -/
def ofFound (p : Predicate) (found : List Product) : SegmentResult where
  status := if p.isEmpty then .unfiltered else if found.isEmpty then .noMatches else .matched
  products := found

/-- The text of a result for people. -/
def display (r : SegmentResult) : String :=
  r.status.display ++ ": " ++ toString r.products.length ++ " products"

/-- The JSON value of a result. -/
def toJson (r : SegmentResult) : Json := .ofMembers
  [("status", .text r.status.jsonName), ("products", Product.listToJson r.products)]

end SegmentResult

end ProductSegments
