import ProductSegments.Proofs.Keyed.Repeats
import ProductSegments.Proofs.Text.ByteOrder
import ProductSegments.Session.Run

/-! # Inserting clauses

  Clauses are put on fields of a session's predicate, one after the other. At every
  point the predicate is told by the one that the session started with, be it
  empty, folded or anything else, and by the insertions so far.

  - `Session.predicateAfter`: the predicate after some insertions.
  - `Predicate.Inserted`: what insertions make of a predicate.
  - `Session.inserted_predicateAfter`: they do so at every point.
  - `Session.get?_predicateAfter_succ` and `answers_insertions`: what one of them
    changes, and what it is answered with.
-/

namespace ProductSegments

/-- The predicate is made from another one by inserting the clauses. -/
structure Predicate.Inserted (start : Predicate) (xs : List (String × Clause)) (p : Predicate) :
    Prop where
  /-- The fields are listed in strictly ascending order of their bytes. -/
  ascending : (p.keys.map Text.bytes).Pairwise (· < ·)
  /-- They are those of the first predicate and those of the insertions. -/
  mem_keys_iff : ∀ field, field ∈ p.keys ↔ field ∈ start.keys ++ xs.map Prod.fst
  /-- There is a clause for each of them. -/
  size_eq : p.size = (start.keys ++ xs.map Prod.fst).dedup.length
  /-- There is none when there is no field. -/
  isEmpty_iff : p.isEmpty = true ↔ (start.keys ++ xs.map Prod.fst).dedup.length = 0
  /-- A field has the clause of the last insertion on it, and the clause that it had
      when there is no such insertion. -/
  get?_eq_some_iff : ∀ field clause, p.get? field = some clause ↔
    IsLast Prod.fst xs (field, clause) ∨
      field ∉ xs.map Prod.fst ∧ start.get? field = some clause

/-- Insertions one after the other make a predicate from another one. -/
theorem Predicate.inserted_foldl (start : Predicate) (xs : List (String × Clause)) :
    Inserted start xs (xs.foldl (fun p x => p.insert x.1 x.2) start) := by
  have hsize := Keyed.size_foldl_insert Prod.fst Prod.snd start xs
  refine ⟨Keyed.ascending_bytes_keys _, ?_, hsize, ?_, ?_⟩
  · intro field
    rw [Keyed.mem_keys_foldl_insert, List.mem_append, or_comm]
  · rw [← hsize]
    exact List.isEmpty_iff_length_eq_zero
  · intro field clause
    have hlast : (∃ x, IsLast Prod.fst xs x ∧ x.1 = field ∧ x.2 = clause) ↔
        IsLast Prod.fst xs (field, clause) := by
      constructor
      · intro ⟨x, h, hfield, hclause⟩
        rw [← hfield, ← hclause]
        exact h
      · intro h
        exact ⟨_, h, rfl, rfl⟩
    have hnone : (∀ x ∈ xs, x.1 ≠ field) ↔ field ∉ xs.map Prod.fst := by
      rw [List.mem_map]
      exact ⟨fun h ⟨x, hx, hfield⟩ => h x hx hfield, fun h x hx hfield => h ⟨x, hx, hfield⟩⟩
    rw [Keyed.get?_foldl_insert_eq_some_iff, hlast, hnone]

namespace Session

variable {s : Session} {xs : List (String × Clause)}

/-- The steps that put the clauses on their fields. -/
def insertions (xs : List (String × Clause)) : List Step :=
  xs.map fun x => .insertClause x.1 x.2

/-- The predicate of a session after the clauses have been put on their fields. -/
def predicateAfter (s : Session) (xs : List (String × Clause)) : Predicate :=
  (s.final (insertions xs)).predicate

/-! ### One insertion -/

theorem after_insertClause (s : Session) (field : String) (clause : Clause) :
    s.after (.insertClause field clause) =
      { s with predicate := s.predicate.insert field clause } := rfl

theorem answer_insertClause (s : Session) (field : String) (clause : Clause) :
    s.answer (.insertClause field clause) =
      pure (.ok (.inserted (s.predicate.get? field) (s.predicate.insert field clause))) := rfl

/-! ### All insertions -/

theorem predicateAfter_eq_foldl (s : Session) (xs : List (String × Clause)) :
    s.predicateAfter xs = xs.foldl (fun p x => p.insert x.1 x.2) s.predicate := by
  induction xs generalizing s with
  | nil => rfl
  | cons x xs ih =>
    show (s.after (.insertClause x.1 x.2)).predicateAfter xs = _
    rw [ih, after_insertClause]
    rfl

/-- Insertions make the predicate from the one that the session had before them. -/
theorem inserted_predicateAfter (s : Session) (xs : List (String × Clause)) :
    s.predicate.Inserted xs (s.predicateAfter xs) := by
  rw [predicateAfter_eq_foldl]
  exact Predicate.inserted_foldl s.predicate xs

/-- One more insertion sets the clause of its field and leaves those of all others. -/
theorem get?_predicateAfter_succ (s : Session) (xs : List (String × Clause)) (i : Fin xs.length)
    (field : String) :
    (s.predicateAfter (xs.take (i + 1))).get? field =
      if field = xs[i].1 then some xs[i].2 else (s.predicateAfter (xs.take i)).get? field := by
  rw [predicateAfter_eq_foldl, predicateAfter_eq_foldl, List.take_succ_eq_append_getElem i.isLt,
    List.foldl_append]
  exact Keyed.get?_insert

/-- Each insertion is answered with the clause that its field had before it and with
    the predicate after it. -/
theorem answers_insertions (s : Session) (xs : List (String × Clause)) :
    s.answers (insertions xs) = xs.mapIdx fun i x =>
      pure (.ok (.inserted ((s.predicateAfter (xs.take i)).get? x.1)
        (s.predicateAfter (xs.take (i + 1))))) := by
  induction xs generalizing s with
  | nil => rfl
  | cons x xs ih =>
    show s.answer (.insertClause x.1 x.2) ::
      (s.after (.insertClause x.1 x.2)).answers (insertions xs) = _
    rw [ih, answer_insertClause, List.mapIdx_cons]
    rfl

/-- **Insertions.** At every point of any insertions, the fields of the predicate are
    listed in strictly ascending order of their bytes. They are the fields that it
    had at first and those of the insertions so far, with a clause for each. A field
    has the clause of the latest insertion on it, or the one that it had at first.
    Every insertion is answered with the clause that its field had just before, and
    leaves the clauses of all other fields as they are. -/
theorem predicates_and_answers_insertions (s : Session) (xs : List (String × Clause)) :
    (∀ i, s.predicate.Inserted (xs.take i) (s.predicateAfter (xs.take i))) ∧
    (∀ (i : Fin xs.length) (field : String),
      (s.predicateAfter (xs.take (i + 1))).get? field =
        if field = xs[i].1 then some xs[i].2 else (s.predicateAfter (xs.take i)).get? field) ∧
    s.answers (insertions xs) = xs.mapIdx fun i x =>
      pure (.ok (.inserted ((s.predicateAfter (xs.take i)).get? x.1)
        (s.predicateAfter (xs.take (i + 1))))) :=
  ⟨fun i => s.inserted_predicateAfter (xs.take i), s.get?_predicateAfter_succ xs,
    s.answers_insertions xs⟩

/-- The clause of a fold is replaced, and then a clause on a smaller field is added. -/
example :
    let s : Session := Session.after {} (.fold [⟨"price", .gt, .number .nan⟩])
    let p := s.predicateAfter [("price", .equals (.string "x")), ("id", .equals (.string "y"))]
    (s.answer (.insertClause "price" (.equals (.string "x")))).value =
        .ok (.inserted (some (.compare .gt (.number .nan)))
          (s.predicateAfter [("price", .equals (.string "x"))])) ∧
      p.keys = ["id", "price"] := by
  decide

end Session

end ProductSegments
