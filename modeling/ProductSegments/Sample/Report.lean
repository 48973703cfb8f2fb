import ProductSegments.Query.Document
import ProductSegments.Schema.Declaration
import ProductSegments.Segment.Evaluate

/-! # Reports on the sample catalog

  Four products to try rules on, and what the program prints for rule text: the
  segmenter, the query document of the rules, the result of evaluating them on the
  sample catalog, and a line for each product. Rejected rules end the report behind
  the first line.
-/

namespace ProductSegments

/-- The sample catalog. -/
def Catalog.sample : Catalog where
  products :=
    [{ id := 101
       title := "Galaxy S24"
       price := some (Double.ofInt 6499)
       stockStatus := some "instock"
       stockQuantity := 12
       category := some "Smartphones"
       tags := ["featured"]
       onSale := true },
     { id := 102
       title := "Pixel 8a"
       price := some (Double.ofInt 3999)
       stockStatus := some "instock"
       stockQuantity := 3
       category := some "Smartphones" },
     { id := 103
       title := "Studio Headphones"
       price := some (Double.ofInt 1299)
       stockStatus := some "outofstock"
       category := some "Audio"
       tags := ["summer"] },
     { id := 104
       title := "Ultrabook 14"
       price := some (Double.ofInt 8999)
       stockStatus := some "onbackorder"
       category := some "Laptops"
       createdAt := Instant.read? "2024-03-01T09:30:00Z".toList }]

/-! ### Reports -/

/-- What a program prints, and the status it ends with. -/
structure Report where
  /-- The exit status. -/
  status : UInt8 := 0
  /-- The lines for standard output. -/
  output : List String := []
  /-- The lines for standard error. -/
  errors : List String := []
deriving DecidableEq

namespace Report

/-- Lines as one text, each with its line end. -/
def textOfLines (ls : List String) : String := String.join (ls.map (· ++ "\n"))

/-- The text for standard output. -/
def outputText (r : Report) : String := textOfLines r.output

/-- The text for standard error. -/
def errorText (r : Report) : String := textOfLines r.errors

/-- The line of an error. -/
def errorLine (e : EvaluationError) : String := e.kindName ++ ": " ++ e.message

/-- The line of a product. -/
def productLine (p : Product) : String := "  #" ++ toString p.id.toNat ++ " " ++ p.title

/-- The segmenter of the sample catalog. -/
def segmenter : Segmenter Catalog := ⟨Schema.catalog, Catalog.sample⟩

/-- The report on rule text. -/
def ofRules (rules : String) : Report :=
  let first := segmenter.display
  match (segmenter.compile rules).value with
  | .error e => { status := 1, output := [first], errors := [errorLine (.rule e)] }
  | .ok p =>
    let query := "Query: " ++ p.document.toText
    match (segmenter.evaluatePredicate p).value with
    | .error e => { status := 1, output := [first, query], errors := [errorLine (.store e)] }
    | .ok r =>
      { output := [first, query, "Result: " ++ r.display] ++ r.products.map productLine }

end Report

end ProductSegments
