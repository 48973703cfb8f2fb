/-! # Keyed data

  A finite map from strings, kept as a list of entries in strictly ascending
  order of their keys. Strings are ordered by code point, which is also the
  order of their UTF-8 bytes. The order is part of the type, so two maps with
  the same content are equal, and a map is written out in one way only.

  - `Keyed.get?` is the view: what a key is bound to.
  - `Keyed.insert` binds a key, replacing what it was bound to before.
  - `Words` is the special case of a set of strings.
-/

namespace ProductSegments

/-- A finite map from strings with its entries in ascending order. -/
structure Keyed (α : Type) where
  /-- The bindings. -/
  entries : List (String × α)
  /-- The keys are in strictly ascending order, so none occurs twice. -/
  ascending : entries.Pairwise (fun a b => a.1 < b.1) := by exact List.Pairwise.nil
deriving DecidableEq

namespace Keyed

variable {α : Type}

/-- The map that binds no key. -/
def empty : Keyed α where
  entries := []

instance : EmptyCollection (Keyed α) := ⟨empty⟩

instance : Inhabited (Keyed α) := ⟨empty⟩

/-- The number of keys. -/
def size (m : Keyed α) : Nat := m.entries.length

/-- Whether no key is bound. -/
def isEmpty (m : Keyed α) : Bool := m.entries.isEmpty

/-- The keys in ascending order. -/
def keys (m : Keyed α) : List String := m.entries.map (·.1)

/-- The values in ascending order of their keys. -/
def values (m : Keyed α) : List α := m.entries.map (·.2)

/-! ### Looking up -/

/-- What a key is bound to. -/
def get? (m : Keyed α) (k : String) : Option α := m.entries.lookup k

/-- Whether a key is bound. -/
def contains (m : Keyed α) (k : String) : Bool := (m.get? k).isSome

/-! ### Inserting -/

/-- Puts an entry into its place among ascending entries. -/
def insertEntry (k : String) (v : α) : List (String × α) → List (String × α)
  | [] => [(k, v)]
  | (j, w) :: es =>
    if k < j then (k, v) :: (j, w) :: es
    else if k = j then (k, v) :: es
    else (j, w) :: insertEntry k v es

/-- The entries after putting one into its place are this one and those that were
    there. -/
theorem mem_insertEntry {k : String} {v : α} {es : List (String × α)} {e : String × α}
    (h : e ∈ insertEntry k v es) : e = (k, v) ∨ e ∈ es := by
  induction es with
  | nil => simp only [insertEntry, List.mem_singleton] at h; exact .inl h
  | cons a es ih =>
    simp only [insertEntry] at h
    split at h
    · rcases List.mem_cons.1 h with rfl | h
      · exact .inl rfl
      · exact .inr h
    · split at h
      · rcases List.mem_cons.1 h with rfl | h
        · exact .inl rfl
        · exact .inr (List.mem_cons_of_mem _ h)
      · rcases List.mem_cons.1 h with rfl | h
        · exact .inr List.mem_cons_self
        · exact (ih h).imp_right (List.mem_cons_of_mem _)

/-- Of two different strings one comes first. -/
theorem lt_of_not_lt_of_ne {a b : String} (h : ¬ a < b) (hne : a ≠ b) : b < a :=
  Decidable.byContradiction fun h' =>
    hne (String.le_antisymm (String.not_lt.1 h') (String.not_lt.1 h))

theorem ascending_insertEntry {k : String} {v : α} {es : List (String × α)}
    (h : es.Pairwise (fun a b => a.1 < b.1)) :
    (insertEntry k v es).Pairwise (fun a b => a.1 < b.1) := by
  induction es with
  | nil => exact List.pairwise_singleton _ _
  | cons a es ih =>
    obtain ⟨ha, hes⟩ := List.pairwise_cons.1 h
    simp only [insertEntry]
    split
    · next hlt =>
      refine List.pairwise_cons.2 ⟨fun e he => ?_, h⟩
      rcases List.mem_cons.1 he with rfl | he
      · exact hlt
      · exact String.lt_trans hlt (ha e he)
    · next hlt =>
      split
      · next heq => exact List.pairwise_cons.2 ⟨fun e he => heq ▸ ha e he, hes⟩
      · next hne =>
        refine List.pairwise_cons.2 ⟨fun e he => ?_, ih hes⟩
        rcases mem_insertEntry he with rfl | he
        · exact lt_of_not_lt_of_ne hlt hne
        · exact ha e he

/-- Binds a key, replacing what it was bound to. -/
def insert (m : Keyed α) (k : String) (v : α) : Keyed α where
  entries := insertEntry k v m.entries
  ascending := ascending_insertEntry m.ascending

/-- The map that binds each key of the list to its last value there. -/
def ofList (l : List (String × α)) : Keyed α := l.foldl (fun m e => m.insert e.1 e.2) ∅

end Keyed

/-- A finite set of strings. -/
abbrev Words := Keyed Unit

namespace Words

/-- The set of the strings of a list. -/
def ofList (l : List String) : Words := l.foldl (fun w s => w.insert s ()) ∅

/-- The strings in ascending order. -/
def toList (w : Words) : List String := w.keys

end Words

end ProductSegments
