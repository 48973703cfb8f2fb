import ProductSegments.Catalog.Basic

/-! # Product stores

  Where the products of a segment are asked for. A store answers a predicate
  with the products that meet it, or fails. A catalog is a store that never
  fails.
-/

namespace ProductSegments

/-! ### Durations

  How long a store was given to answer. A duration is written in the largest of
  seconds, milliseconds, microseconds and nanoseconds of which it holds at least
  one, with as many digits behind the point as it needs.
-/

/-- A length of time. -/
structure Duration where
  /-- The number of nanoseconds. -/
  nanoseconds : Nat
deriving DecidableEq

namespace Duration

/-- The digits of `n` in `places` places behind a point, without trailing
    zeros; nothing if `n` is zero. -/
def fractionText (places n : Nat) : String :=
  if n = 0 then ""
  else "." ++ String.ofList ((Decimal.padded places n).reverse.dropWhile (· == '0')).reverse

/-- A number of nanoseconds in a unit of `10 ^ places` nanoseconds. -/
def inUnit (places : Nat) (name : String) (n : Nat) : String :=
  String.ofList (Nat.toDigits 10 (n / 10 ^ places)) ++ fractionText places (n % 10 ^ places) ++ name

/-- The text of a duration. -/
def text (d : Duration) : String :=
  if 10 ^ 9 ≤ d.nanoseconds then inUnit 9 "s" d.nanoseconds
  else if 10 ^ 6 ≤ d.nanoseconds then inUnit 6 "ms" d.nanoseconds
  else if 10 ^ 3 ≤ d.nanoseconds then inUnit 3 "µs" d.nanoseconds
  else inUnit 0 "ns" d.nanoseconds

end Duration

/-! ### Stores -/

/-- Why a store did not answer. -/
inductive StoreError where
  /-- The store cannot be reached. -/
  | unavailable (reason : String)
  /-- The store did not answer in time. -/
  | timedOut (limit : Duration)
  /-- The store holds no readable catalog. -/
  | catalog (e : CatalogError)
deriving DecidableEq

/-- The message of a store error. -/
def StoreError.message : StoreError → String
  | .unavailable reason => "product store unavailable: " ++ reason
  | .timedOut limit => "product store timed out after " ++ limit.text
  | .catalog e => e.message

/-- Types of stores. -/
class ProductStore (σ : Type) where
  /-- The products that meet a predicate. -/
  find : σ → Predicate → Except StoreError (List Product)

instance : ProductStore Catalog where
  find c p := .ok (c.select p)

/-- A store that fails whatever it is asked. -/
structure BrokenStore where
  /-- The failure. -/
  failure : StoreError
deriving DecidableEq

instance : ProductStore BrokenStore where
  find s _ := .error s.failure

end ProductSegments
