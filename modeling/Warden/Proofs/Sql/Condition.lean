import Warden.Filter.Evaluation
import Warden.Proofs.Sql.Truth
import Warden.Proofs.Value.Integer
import Warden.Sql.Condition

/-! # Conditions on integers, in memory and in the database

A condition is decided twice: on a record before there is a row, and by the database once there is
one. On present integers the two answers are the same. Where a value is absent, tests for absence
and for difference have the same answer, too, but what compares it (**`Operator.rejectsAbsent`**) is
false in memory and null in the database.

**`Operator.Agrees`** says so of an operator with its operands, and
**`Condition.ComparesIntegers.agrees`** of a condition on a field. -/

namespace Warden

open Sql

/-- A part that fails adds nothing to a disjunction. -/
theorem Truth.fails_or (t : Truth) : fails.or t = t := by
  cases t <;> rfl

/-! ## Lists of values -/

namespace Value

variable {v : Value}

theorem truthy_of_items? {vs : List Value} (h : v.items? = some vs) :
    v.truthy = !vs.isEmpty := by
  cases v with
  | list items | tuple items =>
      cases h
      rfl
  | _ => cases h

theorem bounds_of_items? {low high : Value} (h : v.items? = some [low, high]) :
    bounds v = .ok (low, high) := by
  cases v with
  | list items | tuple items =>
      cases h
      rfl
  | _ => cases h

/-- An integer or nothing as a value. -/
def ofInt? : Option Int → Value
  | some n => .int n
  | none => .null

end Value

/-! ## Operators -/

namespace Operator

variable {op : Operator} {v : Value} {column : Column} {family : TypeFamily} {row : IntegerRow}

/-- The value is what the operator takes, made of integers. -/
def TakesIntegers (op : Operator) (v : Value) : Prop :=
  match op with
  | .eq | .neq | .gt | .gte | .lt | .lte => ∃ n : Int, v = .int n
  | .isIn | .notIn => ∃ ns : List Int, v.items? = some (ns.map .int)
  | .between | .nbetween => ∃ low high : Int, v.items? = some [.int low, .int high]
  | .isNull => ∃ b, v = .bool b
  | _ => False

/-- The operator compares, and so never holds of an absent value. -/
def rejectsAbsent (op : Operator) (v : Value) : Bool :=
  match op with
  | .eq | .gt | .gte | .lt | .lte | .between | .nbetween => true
  | .isIn => v.truthy
  | _ => false

/-- Memory and the database give the same answer, except where an absent value is compared: that is
false in memory and null in the database. -/
def Agrees (op : Operator) (v : Value) (column : Column) (family : TypeFamily) (row : IntegerRow) :
    Prop :=
  ∃ p b, operatorPredicate op ⟨column, none⟩ family v = .ok p ∧
    op.test (.ofInt? (row column)) v = .ok b ∧
    p.truth? row =
      some (if row column = none ∧ op.rejectsAbsent v then .unknown else .ofBool b) ∧
    (row column = none → op.rejectsAbsent v → b = false)

/-- An operator that compares agrees if it compares present values alike. -/
theorem agrees_of_compares (holds : Int → Bool) (hop : op.rejectsAbsent v = true) {t : Sql.Test}
    (hp : operatorPredicate op ⟨column, none⟩ family v = .ok (.test t))
    (hnull : op.test .null v = .ok false) (hint : ∀ m, op.test (.int m) v = .ok (holds m))
    (ht : t.truth? row = some (ofPresent (row column) holds)) : op.Agrees v column family row := by
  refine ⟨_, (row column).any holds, hp, ?_, ?_, ?_⟩
  · cases row column with
    | none => exact hnull
    | some m => exact hint m
  · rw [Predicate.truth?, ht]
    cases row column with
    | none => simp [ofPresent, hop]
    | some m => rfl
  · intro hnone _
    rw [hnone]
    rfl

/-- An operator that has an answer for absent values, too, agrees if that is the same one. -/
theorem agrees_of_answers (holds : Option Int → Bool) (hop : op.rejectsAbsent v = false)
    {p : Predicate} (hp : operatorPredicate op ⟨column, none⟩ family v = .ok p)
    (htest : ∀ x, op.test (.ofInt? x) v = .ok (holds x))
    (ht : p.truth? row = some (.ofBool (holds (row column)))) : op.Agrees v column family row := by
  refine ⟨p, holds (row column), hp, htest _, ?_, ?_⟩
  · simp [ht, hop]
  · intro _ h
    rw [hop] at h
    cases h

theorem agrees_isIn {ns : List Int} (hv : v.items? = some (ns.map .int)) :
    isIn.Agrees v column family row := by
  have helements := Value.elements_of_items? hv
  have htruthy := Value.truthy_of_items? hv
  have htest (m : Int) : isIn.test (.int m) v = .ok (decide (m ∈ ns)) := by
    simp only [test, testPresent, helements, bind, Except.bind]
    exact Value.matchesOne_int m ns
  cases ns with
  | nil =>
      -- nothing is among no values, and that is what the database is told
      refine agrees_of_answers (p := .constant false) (fun _ => false) htruthy ?_ ?_ rfl
      · simp only [operatorPredicate, htruthy]
        rfl
      · intro x
        cases x with
        | none => rfl
        | some m => exact htest m
  | cons n ns =>
      refine agrees_of_compares (t := .anyOf ⟨column, none⟩ ((n :: ns).map .int)) _ htruthy ?_ rfl
        htest ?_
      · simp only [operatorPredicate, htruthy, helements]
        rfl
      · rw [Test.truth?, integers?_map]
        rfl

theorem agrees_notIn {ns : List Int} (hv : v.items? = some (ns.map .int)) :
    notIn.Agrees v column family row := by
  have helements := Value.elements_of_items? hv
  have htruthy := Value.truthy_of_items? hv
  have htest (x : Option Int) :
      notIn.test (.ofInt? x) v = .ok (x.all fun m => !decide (m ∈ ns)) := by
    cases x with
    | none => rfl
    | some m =>
        simp only [test, Value.ofInt?, helements, bind, Except.bind, Value.matchesOne_int]
        rfl
  cases ns with
  | nil =>
      refine agrees_of_answers (p := .constant true) _ rfl ?_ htest ?_
      · simp only [operatorPredicate, htruthy]
        rfl
      · cases row column <;> rfl
  | cons n ns =>
      refine agrees_of_answers (p := .test (.noneOf ⟨column, none⟩ ((n :: ns).map .int))) _ rfl ?_
        htest ?_
      · simp only [operatorPredicate, htruthy, helements]
        rfl
      · simp only [Predicate.truth?, Test.truth?, integers?_map, decide_not]
        cases row column with
        | none => rfl
        | some m => exact congrArg some (Truth.fails_or _)

/-- **Memory and the database agree on integers**, whatever the operator. -/
theorem agrees_of_takesIntegers (hv : op.TakesIntegers v) : op.Agrees v column family row := by
  cases op with
  | eq =>
      obtain ⟨n, rfl⟩ := hv
      exact agrees_of_compares _ rfl rfl rfl (fun m => Value.matchesValue_int m n) rfl
  | gt =>
      obtain ⟨n, rfl⟩ := hv
      exact agrees_of_compares _ rfl rfl rfl (fun m => (Value.isOrderedAs_int_iff m n).1) rfl
  | gte =>
      obtain ⟨n, rfl⟩ := hv
      exact agrees_of_compares _ rfl rfl rfl (fun m => (Value.isOrderedAs_int_iff m n).2.1) rfl
  | lt =>
      obtain ⟨n, rfl⟩ := hv
      exact agrees_of_compares _ rfl rfl rfl (fun m => (Value.isOrderedAs_int_iff m n).2.2.1) rfl
  | lte =>
      obtain ⟨n, rfl⟩ := hv
      exact agrees_of_compares _ rfl rfl rfl (fun m => (Value.isOrderedAs_int_iff m n).2.2.2) rfl
  | neq =>
      obtain ⟨n, rfl⟩ := hv
      refine agrees_of_answers (fun x => decide (x ≠ some n)) rfl rfl ?_ rfl
      intro x
      cases x with
      | none => rfl
      | some m =>
          simp only [test, Value.ofInt?, Value.matchesValue_int, bind, Except.bind]
          simp [pure, Except.pure]
  | isIn =>
      obtain ⟨ns, hv⟩ := hv
      exact agrees_isIn hv
  | notIn =>
      obtain ⟨ns, hv⟩ := hv
      exact agrees_notIn hv
  | isNull =>
      obtain ⟨b, rfl⟩ := hv
      refine agrees_of_answers (fun x => x.isNone == b) rfl rfl ?_ ?_
      · intro x
        cases x <;> rfl
      · cases b <;> cases h : row column <;> simp [Predicate.truth?, Value.truthy, Test.truth?, h]
  | between =>
      obtain ⟨low, high, hv⟩ := hv
      refine agrees_of_compares (t := .between ⟨column, none⟩ (.int low) (.int high)) _ rfl ?_ rfl
        (fun m => Value.isBetween_int hv m) rfl
      rw [operatorPredicate, Value.bounds_of_items? hv]
      rfl
  | nbetween =>
      obtain ⟨low, high, hv⟩ := hv
      refine agrees_of_compares (t := .notBetween ⟨column, none⟩ (.int low) (.int high))
        (fun m => decide (¬ (low ≤ m ∧ m ≤ high))) rfl ?_ rfl ?_ rfl
      · rw [operatorPredicate, Value.bounds_of_items? hv]
        rfl
      · intro m
        simp only [test, testPresent, Value.isBetween_int hv, bind, Except.bind, decide_not]
        rfl
  | _ => exact hv.elim

end Operator

/-! ## Conditions -/

/-- The condition compares a field of the collection itself, as it is, with integers. -/
structure Condition.ComparesIntegers (c : Collection) (condition : Condition) : Prop where
  /-- The field is reached without a relation. -/
  direct : Text.hasChar '.' condition.field = false
  /-- It is a field of the collection. -/
  declared : c.hasField condition.field = true
  /-- It is compared without a cast. -/
  uncast : condition.cast = none
  /-- It is compared with integers. -/
  integers : condition.operator.TakesIntegers condition.value

/-- The condition compares a value that the record does not have. -/
def Condition.comparesAbsent (condition : Condition) (record : Record) : Bool :=
  (record.get condition.field).isNull && condition.operator.rejectsAbsent condition.value

theorem split_of_direct {s : String} (h : Text.hasChar '.' s = false) : Text.split '.' s = [s] := by
  have hchars : '.' ∉ s.toList := by simpa [Text.hasChar] using h
  rw [Text.split, Text.splitChars_of_notMem hchars, List.map_singleton, String.ofList_toList]

/-- A condition on integers stands for a predicate of its own row, and the two answers agree. -/
theorem Condition.ComparesIntegers.agrees {c : Collection} {condition : Condition}
    (h : condition.ComparesIntegers c) (k : Catalog) {a : Alias} {record : Record}
    {row : IntegerRow}
    (hrow : record.get condition.field = .ofInt? (row ⟨a, condition.field⟩)) :
    ∃ p b, (∀ n, (Filter.leaf condition).predicate k c a n = .ok (p, n)) ∧
      condition.evaluate record = .ok (.ofBool b) ∧
      p.truth? row = some (if condition.comparesAbsent record then .unknown else .ofBool b) ∧
      (condition.comparesAbsent record = true → b = false) := by
  obtain ⟨field, op, v, cast⟩ := condition
  obtain ⟨hdirect, hdeclared, rfl, hintegers⟩ := h
  obtain ⟨f, hf⟩ := Option.isSome_iff_exists.1 hdeclared
  obtain ⟨p, b, hp, hb, ht, hnull⟩ : op.Agrees v ⟨a, field⟩ f.type.family row :=
    Operator.agrees_of_takesIntegers hintegers
  have habsent : Condition.comparesAbsent ⟨field, op, v, none⟩ record = true ↔
      row ⟨a, field⟩ = none ∧ op.rejectsAbsent v = true := by
    simp only [Condition.comparesAbsent, hrow]
    cases row ⟨a, field⟩ <;> simp [Value.ofInt?, Value.isNull]
  refine ⟨p, b, ?_, ?_, ?_, ?_⟩
  · intro n
    simp only [Filter.predicate, split_of_direct hdirect, pathPredicate, fieldPredicate, hf, hp]
    rfl
  · have hop : op.undecidable = false := by
      cases op with
      | jsonPath | within | containsGeo | intersects | nIntersects | overlaps | dwithin =>
          exact hintegers.elim
      | _ => rfl
    simp only [Condition.evaluate, hdirect, hop, hrow, hb]
    rfl
  · rw [ht]
    simp only [habsent]
  · intro h
    rw [habsent] at h
    exact hnull h.1 h.2

end Warden
