import ProductSegments.Proofs.Rule.Writing
import ProductSegments.Query.Document
import ProductSegments.Schema.Declaration

/-! # What a query document selects

  A document store reads a query document on its own terms. Every key of the
  document must pass on the values that the record of a product has under the key,
  of which an absent attribute has none and a list each of its elements:

  - `Json.value?` is the value that a document holds. A number is read as the
    double nearest to what is written.
  - `Json.Admits` is the reading of a condition and `Json.Selects` that of a
    whole document.
  - `Predicate.document_selects`: the document of a predicate selects what the
    predicate matches.
-/

namespace ProductSegments

/-! ### The reading of a document store -/

namespace Json

/-- The decimal that a real number is written as. -/
def Real.decimal (n : Real) : Decimal := ⟨n.digits, n.exponent?.getD 0 - n.places⟩

/-- The value that a document holds, if it holds a single one. -/
def value? : Json → Option Value
  | .boolean b => some (.boolean b)
  | .string (some s) => some (.string s)
  | .integer negative n => some (.number (Double.ofDecimal negative ⟨n, 0⟩))
  | .real n => some (.number (Double.ofDecimal n.negative n.decimal))
  | _ => none

/-- The relation that the name of an operator stands for; other names stand for
    none. -/
def Orders (name : String) (w v : Value) : Prop :=
  match name with
  | "$gt" => v.Below w
  | "$gte" => v.Below w ∨ w.SameAs v
  | "$lt" => w.Below v
  | "$lte" => w.Below v ∨ w.SameAs v
  | _ => False

/-- Whether a condition passes on the values that there are. A bare value asks for a
    value equal to it, `$ne` for none, and the other operators for a value in their
    relation to the operand. -/
def Admits (condition : Json) (Has : Value → Prop) : Prop :=
  match condition with
  | .object [(some "$ne", operand)] =>
    ∀ w, Has w → ¬ ∃ v, operand.value? = some v ∧ w.SameAs v
  | .object [(some name, operand)] =>
    ∃ w, Has w ∧ ∃ v, operand.value? = some v ∧ Orders name w v
  | .object _ => False
  | bare => ∃ w, Has w ∧ ∃ v, bare.value? = some v ∧ w.SameAs v

/-- Whether a document selects a product: every key passes. -/
def Selects (document : Json) (product : Product) : Prop :=
  match document with
  | .object members => ∀ m ∈ members, ∃ field, m.1 = some field ∧
      m.2.Admits (product.Has field)
  | _ => False

/-! ### Values in a document -/

/-- The number that is written for a decimal is that decimal's number. -/
theorem sameNumber_ofDecimal (negative : Bool) (d : Decimal) :
    (Real.ofDecimal negative d).decimal.SameNumber d := by
  obtain ⟨digits, exponent⟩ := d
  unfold Real.ofDecimal
  split
  · -- written positionally: a whole number gets one zero behind the point
    cases exponent with
    | ofNat n =>
      have hshift := Decimal.sameNumber_shift digits (n + 1) (-1)
      have hexp : (-1 : Int) + (n + 1 : Nat) = Int.ofNat n := by
        show (-1 : Int) + (n + 1 : Nat) = (n : Int)
        omega
      rw [hexp] at hshift
      exact hshift
    | negSucc n =>
      have hexp : (0 : Int) - (n + 1 : Nat) = Int.negSucc n := by omega
      show Decimal.SameNumber ⟨digits, 0 - ((n + 1 : Nat) : Int)⟩ ⟨digits, Int.negSucc n⟩
      rw [hexp]
      rfl
  · -- written with an exponent: it makes up for the digits moved behind the point
    have hlength : 0 < (Nat.toDigits 10 digits).length := Nat.length_toDigits_pos
    have hexp : ((Nat.toDigits 10 digits).length : Int) + exponent - 1 -
        ((Nat.toDigits 10 digits).length - 1 : Nat) = exponent := by omega
    show Decimal.SameNumber ⟨digits, ((Nat.toDigits 10 digits).length : Int) + exponent - 1 -
      ((Nat.toDigits 10 digits).length - 1 : Nat)⟩ ⟨digits, exponent⟩
    rw [hexp]
    rfl

theorem negative_ofDecimal (negative : Bool) (d : Decimal) :
    (Real.ofDecimal negative d).negative = negative := by
  unfold Real.ofDecimal
  split
  · split <;> rfl
  · rfl

/-- A finite number is read back from the document that it is written to. -/
theorem value?_ofDouble {x : Double} (h : x.isFinite = true) :
    (ofDouble x).value? = some (.number x) := by
  cases x with
  | nan => cases h
  | infinite negative => cases h
  | finite negative m =>
    have hread : Double.ofDecimal negative (Real.ofDecimal negative (m.shortest .even)).decimal =
        .finite negative m := by
      rw [Double.ofDecimal_of_sameNumber (sameNumber_ofDecimal negative _)]
      exact Double.ofDecimal_shortest .even m
    show some (Value.number (Double.ofDecimal (Real.ofDecimal negative (m.shortest .even)).negative
      (Real.ofDecimal negative (m.shortest .even)).decimal)) = _
    rw [negative_ofDecimal, hread]

end Json

/-! ### Clauses in a document -/

namespace Value

variable {v : Value}

/-- The value is a finite number, or no number. -/
def Finite (v : Value) : Prop := ∀ x, v = .number x → x.isFinite = true

/-- A finite value is read back from a document. -/
theorem value?_toJson (h : v.Finite) : v.toJson.value? = some v := by
  cases v with
  | number x => exact Json.value?_ofDouble (h x rfl)
  | boolean b => rfl
  | string s => rfl

/-- What a document asks of the value in it, it asks of the value. -/
theorem exists_value?_toJson_iff {R : Value → Prop} (h : v.Finite) :
    (∃ u, v.toJson.value? = some u ∧ R u) ↔ R v := by
  rw [value?_toJson h]
  simp only [Option.some.injEq, exists_eq_left']

/-- The document of a value is a bare value. -/
theorem admits_toJson_iff {Has : Value → Prop} :
    v.toJson.Admits Has ↔ ∃ w, Has w ∧ ∃ u, v.toJson.value? = some u ∧ w.SameAs u := by
  cases v with
  | number x => cases x <;> rfl
  | boolean b => rfl
  | string s => rfl

end Value

/-- An operator with a name, `!=` apart, asks for a value in its relation. -/
theorem Operator.admits_queryName_iff {op : Operator} {name : String} {operand : Json}
    {Has : Value → Prop} (hname : op.queryName? = some name) (hne : op ≠ .ne) :
    (Json.ofMembers [(name, operand)]).Admits Has ↔
      ∃ w, Has w ∧ ∃ v, operand.value? = some v ∧ op.Relates w v := by
  cases op with
  | eq => cases hname
  | ne => exact absurd rfl hne
  | gt => cases hname; rfl
  | ge => cases hname; rfl
  | lt => cases hname; rfl
  | le => cases hname; rfl

/-- Only equality has no name. -/
theorem Operator.eq_of_queryName?_eq_none {op : Operator} (h : op.queryName? = none) :
    op = .eq := by
  cases op <;> first | rfl | cases h

/-- The condition of a clause asks what the clause's operator means. -/
theorem Clause.admits_toJson_iff {clause : Clause} {Has : Value → Prop}
    (h : clause.value.Finite) :
    clause.toJson.Admits Has ↔ clause.operator.HoldsAmong Has clause.value := by
  have hread {R : Value → Prop} :
      (∃ u, clause.value.toJson.value? = some u ∧ R u) ↔ R clause.value :=
    Value.exists_value?_toJson_iff h
  by_cases hne : clause.operator = .ne
  · -- `$ne` denies equality, and no value has to be there
    have hjson : clause.toJson = .ofMembers [("$ne", clause.value.toJson)] := by
      unfold Clause.toJson
      rw [hne]
      rfl
    rw [hjson, hne]
    show (∀ w, Has w → ¬ ∃ u, clause.value.toJson.value? = some u ∧ w.SameAs u) ↔ _
    simp only [hread]
    rfl
  · rw [Operator.holdsAmong_iff hne]
    unfold Clause.toJson
    rcases hname : clause.operator.queryName? with - | name
    · rw [Operator.eq_of_queryName?_eq_none hname]
      show clause.value.toJson.Admits Has ↔ _
      rw [Value.admits_toJson_iff]
      simp only [hread]
      rfl
    · show (Json.ofMembers [(name, clause.value.toJson)]).Admits Has ↔ _
      rw [Operator.admits_queryName_iff hname hne]
      simp only [hread]

/-! ### Predicates as documents -/

namespace Predicate

variable {p : Predicate} {product : Product}

/-- The numbers of the predicate are finite. -/
def Finite (p : Predicate) : Prop := ∀ e ∈ p.entries, e.2.value.Finite

/-- Text compiles to finite numbers. -/
theorem finite_of_compile {schema : Schema} {text : String}
    (h : Rule.compile schema text = .ok p) : p.Finite := by
  intro e he x hx
  obtain ⟨kind, -, htakes⟩ := (Rule.writable_of_compile h e he).takes
  rw [hx] at htakes
  rcases htakes.cases with ⟨-, negative, m, hv⟩ | ⟨-, b, hv⟩ | ⟨-, s, hv, -⟩ | ⟨_, -, s, hv, -⟩
  · cases hv
    rfl
  · cases hv
  · cases hv
  · cases hv

/-- The keys of a document are the fields of the predicate. -/
theorem selects_document_iff :
    p.document.Selects product ↔
      ∀ e ∈ p.entries, e.2.toJson.Admits (product.Has e.1) := by
  unfold Predicate.document Json.ofMembers
  simp only [Json.Selects, List.forall_mem_map]
  constructor
  · intro h e he
    obtain ⟨field, hfield, hadmits⟩ := h e he
    cases hfield
    exact hadmits
  · intro h e he
    exact ⟨e.1, rfl, h e he⟩

/-- **Query documents.** The document of a predicate with finite numbers selects
    the products that the predicate matches, and every predicate that comes out
    of rule text has finite numbers. -/
theorem document_selects :
    (∀ p : Predicate, p.Finite → ∀ product : Product,
      p.matchesProduct product = true ↔ p.document.Selects product) ∧
    (∀ (schema : Schema) (text : String) (p : Predicate),
      Rule.compile schema text = .ok p → p.Finite) := by
  refine ⟨fun p hfinite product => ?_, fun schema text p h => finite_of_compile h⟩
  rw [matchesProduct_iff, selects_document_iff]
  constructor
  · intro h e he
    have hholds := h e.1 e.2 (Keyed.get?_eq_some_iff.mpr he)
    exact (Clause.admits_toJson_iff (hfinite e he)).mpr (Clause.holds_attributeAt_iff.mp hholds)
  · intro h field clause hget
    have he : (field, clause) ∈ p.entries := Keyed.get?_eq_some_iff.mp hget
    exact Clause.holds_attributeAt_iff.mpr
      ((Clause.admits_toJson_iff (hfinite _ he)).mp (h _ he))

/-- A product without a price passes `!=` on the price, in memory and in the
    document. -/
theorem document_selects_from_sample :
    let product : Product := { id := 1, title := "Tent", tags := ["summer", "sale"] }
    ∃ p, Rule.compile Schema.catalog "price != 5000\ntags = sale" = .ok p ∧ p.Finite ∧
      p.matchesProduct product = true ∧ p.document.Selects product := by
  intro product
  have hok : ((Rule.compile Schema.catalog "price != 5000\ntags = sale").map
      (·.matchesProduct product)).toOption = some true := by decide +kernel
  cases hp : Rule.compile Schema.catalog "price != 5000\ntags = sale" with
  | error e => rw [hp] at hok; cases hok
  | ok p =>
    have hfinite : p.Finite := document_selects.2 _ _ p hp
    have hmatches : p.matchesProduct product = true := by
      rw [hp] at hok
      exact Option.some.inj hok
    exact ⟨p, rfl, hfinite, hmatches, (document_selects.1 p hfinite product).mp hmatches⟩

end Predicate

end ProductSegments
