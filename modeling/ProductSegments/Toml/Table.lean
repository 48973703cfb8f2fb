/-! # TOML tables

  A TOML document is a tree of tables. Which tables a line of the document may
  still extend depends on how they came about, so a table remembers its
  origin while the document is read:

  - a table *written* under its own header is complete but for what the lines
    below the header add, and no other header may open it again;
  - a table *implied* by the header of one of its subtables may still get a
    header of its own;
  - a table made by a *dotted* key may be extended by dotted keys only;
  - an *inline* table is closed.

  Strings, arrays and tables are kept; numbers, booleans and dates are not
  told apart, because schemas hold none of them. A number may be well written
  and still stand for no value, which matters only where the value is asked
  for: `Toml.hasValues` says whether a whole tree can be read.
-/

namespace ProductSegments

namespace Toml

/-- How a table came about. -/
inductive Origin where
  /-- Under its own header, or as the document itself. -/
  | written
  /-- On the way to a header. -/
  | implied
  /-- On the way of a dotted key. -/
  | dotted
  /-- Between braces. -/
  | inline
deriving DecidableEq

end Toml

/-- A TOML value. -/
inductive Toml where
  /-- A string. -/
  | string (s : String)
  /-- A boolean, a date, or a number that stands for a value. -/
  | scalar
  /-- A number that stands for no value, such as one that is too large. -/
  | valueless
  /-- An array written between brackets. -/
  | array (items : List Toml)
  /-- The tables written under headers in double brackets, the latest last. -/
  | tables (elements : List (List (String × Toml)))
  /-- A table. -/
  | table (origin : Toml.Origin) (entries : List (String × Toml))

namespace Toml

mutual

/-- Whether every number inside stands for a value. -/
def hasValues : Toml → Bool
  | .string _ => true
  | .scalar => true
  | .valueless => false
  | .array items => itemsHaveValues items
  | .tables elements => elementsHaveValues elements
  | .table _ entries => entriesHaveValues entries

/-- Whether every number in the items of an array stands for a value. -/
def itemsHaveValues : List Toml → Bool
  | [] => true
  | v :: vs => hasValues v && itemsHaveValues vs

/-- Whether every number in several tables stands for a value. -/
def elementsHaveValues : List (List (String × Toml)) → Bool
  | [] => true
  | es :: ts => entriesHaveValues es && elementsHaveValues ts

/-- Whether every number in the entries of a table stands for a value. -/
def entriesHaveValues : List (String × Toml) → Bool
  | [] => true
  | (_, v) :: es => hasValues v && entriesHaveValues es

end

/-- The entries of a table, each key occurring once. -/
abbrev Entries := List (String × Toml)

/-- Replaces the value of a key. -/
def replace (key : String) (v : Toml) (es : Entries) : Entries :=
  es.map fun e => if e.1 = key then (key, v) else e

/-- Adds a key that is not there yet. -/
def addNew? (key : String) (v : Toml) (es : Entries) : Option Entries :=
  if (es.lookup key).isSome then none else some (es ++ [(key, v)])

/-- Changes the last element of a list. -/
def modifyLast? {α : Type} (f : α → Option α) : List α → Option (List α)
  | [] => none
  | [a] => (f a).map ([·])
  | a :: b :: l => (modifyLast? f (b :: l)).map (a :: ·)

/-- Changes the table at the end of a path, making the tables that the path
    lacks. `made` is the origin of those tables and `enter` says which tables
    the path may pass; it also passes the latest of several tables. -/
def modify? (made : Origin) (enter : Origin → Bool) (f : Origin → Entries → Option Entries) :
    List String → Origin → Entries → Option Entries
  | [], origin, es => f origin es
  | key :: path, _, es =>
    match es.lookup key with
    | none => (modify? made enter f path made []).map fun t => es ++ [(key, .table made t)]
    | some (.table origin t) =>
      if enter origin then
        (modify? made enter f path origin t).map fun t => replace key (.table origin t) es
      else none
    | some (.tables ts) =>
      (modifyLast? (modify? made enter f path .written) ts).map fun ts =>
        replace key (.tables ts) es
    | _ => none

/-- The tables that a header path may pass. -/
def headerEnters (origin : Origin) : Bool := origin != .inline

/-- The tables that a dotted key may pass. -/
def dottedEnters (origin : Origin) : Bool := origin == .dotted || origin == .implied

/-- Splits a key path into the path of the table and the key in it. -/
def splitLast? (path : List String) : Option (List String × String) :=
  path.getLast?.map fun key => (path.dropLast, key)

/-- Binds a key path to a value inside a table. A path of several keys ends in
    a table that dotted keys have made. -/
def assign? (path : List String) (v : Toml) (origin : Origin) (es : Entries) : Option Entries := do
  let (tablePath, key) ← splitLast? path
  -- a lone key does not add to a table of dotted keys, nor a dotted one to any other
  modify? .dotted dottedEnters
    (fun o t => if (o == .dotted) == tablePath.isEmpty then none else addNew? key v t)
    tablePath origin es

/-- Opens the table of a header. -/
def openTable? (path : List String) (root : Entries) : Option Entries := do
  let (tablePath, key) ← splitLast? path
  modify? .implied headerEnters
    (fun _ t => match t.lookup key with
      | none => some (t ++ [(key, .table .written [])])
      | some (.table .implied sub) => some (replace key (.table .written sub) t)
      | _ => none)
    tablePath .written root

/-- Opens a further table under a header in double brackets. -/
def openElement? (path : List String) (root : Entries) : Option Entries := do
  let (tablePath, key) ← splitLast? path
  modify? .implied headerEnters
    (fun _ t => match t.lookup key with
      | none => some (t ++ [(key, .tables [[]])])
      | some (.tables ts) => some (replace key (.tables (ts ++ [[]])) t)
      | _ => none)
    tablePath .written root

/-- Binds a key path to a value in the table that the last header has opened. -/
def assignUnder? (header path : List String) (v : Toml) (root : Entries) : Option Entries :=
  modify? .implied headerEnters (assign? path v) header .written root

end Toml

end ProductSegments
