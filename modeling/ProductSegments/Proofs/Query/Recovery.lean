import ProductSegments.Proofs.Query.Reading
import ProductSegments.Proofs.Text.ByteOrder

/-! # Predicates from query documents

  A query document can be read back as the predicate that it was written for. A
  bare value stands for an equality, an object with the name of an operator for a
  comparison, and neither can be taken for the other whatever the fields and the
  strings are:

  - `Json.clause?` and `Json.predicate?` read conditions and documents.
  - `Clause.clause?_toJson` and `Predicate.predicate?_document`: what is written is
    read back.
  - `Json.SameAs`: documents whose numbers are the same, zeros of either sign being
    one number. Reading keeps them the same.
  - `Predicate.document_determines`: compiled predicates and their documents.
-/

namespace ProductSegments

/-! ### Reading documents -/

/-- The operator that a name in a query document stands for. -/
def Operator.ofQueryName? : String → Option Operator
  | "$ne" => some .ne
  | "$gt" => some .gt
  | "$gte" => some .ge
  | "$lt" => some .lt
  | "$lte" => some .le
  | _ => none

theorem Operator.ofQueryName?_of_queryName? {op : Operator} {name : String}
    (h : op.queryName? = some name) : ofQueryName? name = some op := by
  cases op <;> cases h <;> rfl

namespace Json

/-- The clause that a condition stands for: an object with the name of an operator is
    a comparison with its operand, and a bare value is an equality. -/
def clause? : Json → Option Clause
  | .object [(some name, operand)] => do
    return .compare (← Operator.ofQueryName? name) (← operand.value?)
  | condition => condition.value?.map .equals

/-- The field and the clause that a member of a document stands for. -/
def fieldClause? (m : Option String × Json) : Option (String × Clause) := do
  return (← m.1, ← m.2.clause?)

/-- The predicate that a document stands for, with a clause for each member. -/
def predicate? : Json → Option Predicate
  | .object members => (members.mapM fieldClause?).map Keyed.ofList
  | _ => none

variable {j k : Json} {v w : Value} {c d : Clause}

/-- A bare value is an equality. -/
theorem clause?_of_value? (h : j.value? = some v) : j.clause? = some (.equals v) := by
  cases j with
  | object members => cases h
  | null => cases h
  | array items => cases h
  | boolean b => simp [clause?, h]
  | integer negative n => simp [clause?, h]
  | real n => simp [clause?, h]
  | string s? => simp [clause?, h]

/-- An object is a comparison if it has a single member, which is named after the
    operator. -/
theorem clause?_object_eq_some_iff {members : List (Option String × Json)} :
    (object members).clause? = some c ↔ ∃ name operand, members = [(some name, operand)] ∧
      ∃ op v, Operator.ofQueryName? name = some op ∧ operand.value? = some v ∧
        c = .compare op v := by
  constructor
  · intro h
    unfold clause? at h
    split at h
    · next name operand hmembers =>
      cases hmembers
      obtain ⟨op, hop, v, hv, hc⟩ :
          ∃ op, Operator.ofQueryName? name = some op ∧ ∃ v, operand.value? = some v ∧
            Clause.compare op v = c := by
        simpa [Option.bind_eq_some_iff] using h
      exact ⟨name, operand, rfl, op, v, hop, hv, hc.symm⟩
    · -- no other object holds a value
      cases h
  · rintro ⟨name, operand, rfl, op, v, hop, hv, rfl⟩
    simp [clause?, hop, hv]

end Json

/-! ### Writing and reading -/

/-- A clause that its condition tells: the number in it is finite, and equality has
    its own form. -/
structure Clause.IsTold (c : Clause) : Prop where
  /-- The value is read back. -/
  finite : c.value.Finite
  /-- The condition of an equality is a bare value. -/
  normal : ∀ v, c ≠ .compare .eq v

/-- The condition of a comparison is an object with the name of its operator. -/
theorem Clause.toJson_compare {op : Operator} {v : Value} (h : (compare op v).IsTold) :
    ∃ name, op.queryName? = some name ∧ (compare op v).toJson = .object [(some name, v.toJson)] := by
  cases hname : op.queryName? with
  | none => exact absurd rfl (Operator.eq_of_queryName?_eq_none hname ▸ h.normal v)
  | some name => exact ⟨name, rfl, by simp [toJson, operator, hname, value, Json.ofMembers]⟩

/-- The condition of a clause is read as the clause. -/
theorem Clause.clause?_toJson {c : Clause} (h : c.IsTold) : c.toJson.clause? = some c := by
  have hvalue : c.value.toJson.value? = some c.value := Value.value?_toJson h.finite
  cases c with
  | equals v => exact Json.clause?_of_value? hvalue
  | compare op v =>
    obtain ⟨name, hname, hjson⟩ := toJson_compare h
    rw [hjson, Json.clause?_object_eq_some_iff]
    exact ⟨name, _, rfl, op, v, Operator.ofQueryName?_of_queryName? hname, hvalue, rfl⟩

namespace Predicate

variable {p : Predicate}

theorem document_eq_object (p : Predicate) :
    p.document = .object (p.entries.map fun e => (some e.1, e.2.toJson)) := by
  simp [document, Json.ofMembers]

/-- The document of a predicate of such clauses is read as the predicate. -/
theorem predicate?_document (h : ∀ e ∈ p.entries, e.2.IsTold) :
    p.document.predicate? = some p := by
  have hmembers : (p.entries.map fun e => (some e.1, e.2.toJson)).mapM Json.fieldClause? =
      some p.entries := by
    apply Outcome.mapM_map_eq_some
    intro e he
    simp [Json.fieldClause?, Clause.clause?_toJson (h e he)]
  rw [document_eq_object, Json.predicate?, hmembers, Option.map_some, Keyed.ofList_entries]

/-- Text compiles to such clauses. -/
theorem isTold_of_compile {schema : Schema} {text : String}
    (h : Rule.compile schema text = .ok p) : ∀ e ∈ p.entries, e.2.IsTold :=
  fun e he => ⟨finite_of_compile h e he, (Rule.writable_of_compile h e he).normal⟩

end Predicate

/-! ### The same numbers -/

/-- Two JSON values are the same up to how their numbers are written and to the sign
    of zeros. -/
inductive Json.SameAs : Json → Json → Prop where
  /-- Single values are the same. -/
  | value {j k : Json} {v w : Value} (hj : j.value? = some v) (hk : k.value? = some w)
      (h : v.SameAs w) : SameAs j k
  /-- Objects have the same keys in one order, and under each of them the same. -/
  | object {ms ns : List (Option String × Json)} (hkeys : ms.map Prod.fst = ns.map Prod.fst)
      (hvalues : List.Forall₂ SameAs (ms.map Prod.snd) (ns.map Prod.snd)) :
      SameAs (.object ms) (.object ns)

/-- Two clauses are of one form, with the same operator and the same value. -/
def Clause.SameAs : Clause → Clause → Prop
  | .equals v, .equals w => v.SameAs w
  | .compare op v, .compare op' w => op = op' ∧ v.SameAs w
  | _, _ => False

/-- Two predicates have clauses on the same fields, which are the same on each. -/
structure Predicate.SameAs (p q : Predicate) : Prop where
  /-- The fields. -/
  keys : p.keys = q.keys
  /-- The clauses, in the order of the fields. -/
  clauses : List.Forall₂ Clause.SameAs p.values q.values

namespace Json

variable {j k : Json} {v w : Value} {c d : Clause} {ms ns : List (Option String × Json)}

theorem SameAs.value_sameAs (h : j.SameAs k) (hj : j.value? = some v) (hk : k.value? = some w) :
    v.SameAs w := by
  cases h with
  | value hj' hk' h =>
    cases hj.symm.trans hj'
    cases hk.symm.trans hk'
    exact h
  | object _ _ => cases hj

theorem sameAs_object_iff : (object ms).SameAs (object ns) ↔
    ms.map Prod.fst = ns.map Prod.fst ∧
      List.Forall₂ SameAs (ms.map Prod.snd) (ns.map Prod.snd) := by
  constructor
  · intro h
    cases h with
    | value hj _ _ => cases hj
    | object hkeys hvalues => exact ⟨hkeys, hvalues⟩
  · intro ⟨hkeys, hvalues⟩
    exact .object hkeys hvalues

/-- Conditions that are the same are read as clauses that are the same. -/
theorem SameAs.clause_sameAs (h : j.SameAs k) (hj : j.clause? = some c)
    (hk : k.clause? = some d) : c.SameAs d := by
  cases h with
  | value hj' hk' h =>
    rw [clause?_of_value? hj'] at hj
    rw [clause?_of_value? hk'] at hk
    cases hj
    cases hk
    exact h
  | object hkeys hvalues =>
    obtain ⟨name, operand, rfl, op, v, hop, hv, rfl⟩ := clause?_object_eq_some_iff.mp hj
    obtain ⟨name', operand', rfl, op', w, hop', hw, rfl⟩ := clause?_object_eq_some_iff.mp hk
    cases hkeys
    cases hop.symm.trans hop'
    obtain ⟨hoperand, -⟩ := List.forall₂_cons.mp hvalues
    exact ⟨rfl, hoperand.value_sameAs hv hw⟩

end Json

/-- Conditions are the same exactly when the clauses are. -/
theorem Clause.toJson_sameAs_iff {c d : Clause} (hc : c.IsTold) (hd : d.IsTold) :
    c.toJson.SameAs d.toJson ↔ c.SameAs d := by
  constructor
  · intro h
    exact h.clause_sameAs (clause?_toJson hc) (clause?_toJson hd)
  · intro h
    have hcvalue := Value.value?_toJson hc.finite
    have hdvalue := Value.value?_toJson hd.finite
    cases c with
    | equals v =>
      cases d with
      | equals w => exact .value hcvalue hdvalue h
      | compare op w => exact h.elim
    | compare op v =>
      cases d with
      | equals w => exact h.elim
      | compare op' w =>
        obtain ⟨rfl, h⟩ := h
        -- both objects have the name of the one operator as their key
        obtain ⟨name, hname, hcjson⟩ := toJson_compare hc
        obtain ⟨name', hname', hdjson⟩ := toJson_compare hd
        cases hname.symm.trans hname'
        rw [hcjson, hdjson]
        exact .object rfl (.cons (.value hcvalue hdvalue h) .nil)

namespace Predicate

variable {p q : Predicate}

/-- The keys of a document are the fields. -/
theorem map_fst_members (p : Predicate) :
    (p.entries.map fun e => (some e.1, e.2.toJson)).map Prod.fst = p.keys.map some := by
  simp [Keyed.keys]

/-- Under the keys of a document stand the conditions of the clauses. -/
theorem map_snd_members (p : Predicate) :
    (p.entries.map fun e => (some e.1, e.2.toJson)).map Prod.snd = p.values.map Clause.toJson := by
  simp [Keyed.values]

/-- The conditions of two predicates are the same exactly when the clauses are. -/
theorem forall₂_toJson_sameAs_iff (hp : ∀ e ∈ p.entries, e.2.IsTold)
    (hq : ∀ e ∈ q.entries, e.2.IsTold) :
    List.Forall₂ Json.SameAs (p.values.map Clause.toJson) (q.values.map Clause.toJson) ↔
      List.Forall₂ Clause.SameAs p.values q.values := by
  rw [List.forall₂_map_left_iff, List.forall₂_map_right_iff]
  apply Outcome.forall₂_congr
  intro c hc d hd
  obtain ⟨e, he, rfl⟩ := List.mem_map.mp hc
  obtain ⟨f, hf, rfl⟩ := List.mem_map.mp hd
  exact Clause.toJson_sameAs_iff (hp e he) (hq f hf)

/-- Documents are the same exactly when the predicates are. -/
theorem document_sameAs_iff (hp : ∀ e ∈ p.entries, e.2.IsTold) (hq : ∀ e ∈ q.entries, e.2.IsTold) :
    p.document.SameAs q.document ↔ p.SameAs q := by
  have hkeys : p.keys.map some = q.keys.map some ↔ p.keys = q.keys :=
    (List.map_injective_iff.mpr (Option.some_injective String)).eq_iff
  rw [document_eq_object, document_eq_object, Json.sameAs_object_iff, map_fst_members,
    map_fst_members, map_snd_members, map_snd_members, hkeys, forall₂_toJson_sameAs_iff hp hq]
  exact ⟨fun h => ⟨h.1, h.2⟩, fun h => ⟨h.keys, h.clauses⟩⟩

/-- **Recovery.** The document of a compiled predicate is read back as the predicate.
    It has a key for each clause, in strictly ascending order of the bytes. Under each
    key stands what is read as the clause on that field. So two compiled predicates
    with one document are one predicate, and if the documents differ in the signs of
    zeros only, so do the predicates. -/
theorem document_determines {schema : Schema} {text : String} {p : Predicate}
    (h : Rule.compile schema text = .ok p) :
    p.document.predicate? = some p ∧
    (∃ members : List (String × Json), p.document = .ofMembers members ∧
      members.map Prod.fst = p.keys ∧ members.length = p.size ∧
      (members.map fun m => Text.bytes m.1).Pairwise (· < ·) ∧
      ∀ m ∈ members, ∃ clause, p.get? m.1 = some clause ∧ m.2.clause? = some clause) ∧
    ∀ schema' text' q, Rule.compile schema' text' = .ok q →
      (q.document = p.document ↔ q = p) ∧ (q.document.SameAs p.document ↔ q.SameAs p) := by
  have htold : ∀ e ∈ p.entries, e.2.IsTold := isTold_of_compile h
  refine ⟨predicate?_document htold, ⟨p.entries.map fun e => (e.1, e.2.toJson), rfl, ?_, ?_, ?_, ?_⟩,
    fun schema' text' q hq => ⟨⟨fun heq => ?_, fun heq => congrArg document heq⟩, ?_⟩⟩
  · simp [Keyed.keys]
  · exact List.length_map _
  · rw [List.pairwise_map, List.pairwise_map]
    exact p.ascending.imp Text.bytes_lt_bytes_iff.mpr
  · intro m hm
    obtain ⟨e, he, rfl⟩ := List.mem_map.mp hm
    exact ⟨e.2, Keyed.get?_eq_some_iff.mpr he, Clause.clause?_toJson (htold e he)⟩
  · have hread : q.document.predicate? = some q := predicate?_document (isTold_of_compile hq)
    rw [heq, predicate?_document htold] at hread
    exact (Option.some.inj hread).symm
  · exact document_sameAs_iff (isTold_of_compile hq) htold

/-- Fields and strings that look like operators and numbers, and the same clauses from
    another text under another schema. -/
theorem document_determines_for_operators_as_fields :
    let schema := Schema.ofSpecs [⟨"$gte", .number⟩, ⟨"$ne", .string⟩, ⟨"size", .string⟩]
    let schema' := Schema.ofSpecs [⟨"$gte", .number⟩, ⟨"$ne", .string⟩,
      ⟨"size", .enumeration (Words.ofList ["5", "$lt"])⟩]
    ∃ p q, Rule.compile schema "$ne = $gt\n$gte >= 5\nsize != 5" = .ok p ∧
      Rule.compile schema' "size != 5\n$ne = $gt\n$gte >= 5.0" = .ok q ∧
      p.document.predicate? = some p ∧ q.document = p.document ∧ q = p := by
  intro schema schema'
  have hok : (Rule.compile schema "$ne = $gt\n$gte >= 5\nsize != 5").isOk = true := by
    decide +kernel
  have hsame : Rule.compile schema' "size != 5\n$ne = $gt\n$gte >= 5.0" =
      Rule.compile schema "$ne = $gt\n$gte >= 5\nsize != 5" := by decide +kernel
  obtain ⟨p, hp⟩ := Outcome.exists_eq_ok_of_isOk hok
  obtain ⟨hread, -, hother⟩ := document_determines hp
  have hq := hsame.trans hp
  exact ⟨p, p, hp, hq, hread, rfl, (hother _ _ p hq).1.mp rfl⟩

end Predicate

end ProductSegments
