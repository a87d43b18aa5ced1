import Warden.Filter.Truth
import Warden.Proofs.Outcome
import Warden.Sql.Predicate

/-! # What predicates say of rows of integers

An **`IntegerRow`** gives every column an integer or nothing. The database then takes a predicate
for true, false or null (**`Predicate.truth?`**), with null for `Truth.unknown`: whatever compares a
column that holds nothing is null, but the tests for nothing and `IS DISTINCT FROM` never are, and
the connectives pass null on as those of `Truth` do.

Predicates about other things than integers of one row have no such meaning here, and neither have
`()` and joins. -/

namespace Warden.Sql

/-- What the columns of a row hold: an integer or nothing. -/
abbrev IntegerRow := Column → Option Int

/-- A question about an integer is null where there is none. -/
def ofPresent (x : Option Int) (holds : Int → Bool) : Truth :=
  match x with
  | some n => .ofBool (holds n)
  | none => .unknown

/-- The integers among the values, if all of them are. -/
def integers? : List Value → Option (List Int)
  | [] => some []
  | .int n :: vs => (integers? vs).map (n :: ·)
  | _ :: _ => none

@[simp] theorem integers?_map (ns : List Int) : integers? (ns.map .int) = some ns := by
  induction ns with
  | nil => rfl
  | cons n ns ih => rw [List.map_cons, integers?, ih, Option.map_some]

/-- How a comparison compares integers. -/
def Comparator.holds? : Comparator → Option (Int → Int → Bool)
  | .equal => some fun m n => m = n
  | .greater => some fun m n => n < m
  | .greaterOrEqual => some fun m n => n ≤ m
  | .less => some fun m n => m < n
  | .lessOrEqual => some fun m n => m ≤ n
  | _ => none

/-- The truth value of a test of a column without a cast against integers. -/
def Test.truth? (row : IntegerRow) : Test → Option Truth
  | .compare ⟨c, none⟩ .distinct (.int n) => some (.ofBool (row c ≠ some n))
  | .compare ⟨c, none⟩ comparator (.int n) =>
    comparator.holds?.map fun holds => ofPresent (row c) (holds · n)
  | .isNull ⟨c, none⟩ => some (.ofBool (row c).isNone)
  | .isNotNull ⟨c, none⟩ => some (.ofBool (row c).isSome)
  -- nothing is among no values, not even null
  | .anyOf ⟨c, none⟩ vs => (integers? vs).map fun ns =>
    if ns.isEmpty then .fails else ofPresent (row c) fun m => m ∈ ns
  | .noneOf ⟨c, none⟩ vs => (integers? vs).map fun ns =>
    (Truth.ofBool (row c).isNone).or (ofPresent (row c) fun m => m ∉ ns)
  | .between ⟨c, none⟩ (.int low) (.int high) =>
    some (ofPresent (row c) fun m => low ≤ m ∧ m ≤ high)
  | .notBetween ⟨c, none⟩ (.int low) (.int high) =>
    some (ofPresent (row c) fun m => ¬ (low ≤ m ∧ m ≤ high))
  | _ => none

namespace Predicate

mutual

/-- The truth value of a predicate on a row of integers. -/
def truth? (row : IntegerRow) : Predicate → Option Truth
  | .constant b => some (.ofBool b)
  | .test t => t.truth? row
  | .conj ps => if ps.isEmpty then none else allTruth? row ps
  | .disj ps => if ps.isEmpty then none else anyTruth? row ps
  | .neg p => (truth? row p).map .not
  | .exist _ _ => none

/-- The truth value of a conjunction. -/
def allTruth? (row : IntegerRow) : List Predicate → Option Truth
  | [] => some .holds
  | p :: ps => do return (← truth? row p).and (← allTruth? row ps)

/-- The truth value of a disjunction. -/
def anyTruth? (row : IntegerRow) : List Predicate → Option Truth
  | [] => some .fails
  | p :: ps => do return (← truth? row p).or (← anyTruth? row ps)

end

/-- A disjunction has the value of the negated conjunction of its negated parts. -/
theorem truth?_disj (row : IntegerRow) (ps : List Predicate) :
    (disj ps).truth? row = (neg (conj (ps.map neg))).truth? row := by
  have hany : anyTruth? row ps = (allTruth? row (ps.map neg)).map .not := by
    induction ps with
    | nil => rfl
    | cons p ps ih =>
        rw [anyTruth?, List.map_cons, allTruth?, truth?, ih]
        cases p.truth? row with
        | none => rfl
        | some s =>
            cases allTruth? row (ps.map neg) with
            | none => rfl
            | some t => cases s <;> cases t <;> rfl
  rw [truth?, truth?, truth?, hany, List.isEmpty_map]
  split <;> rfl

end Predicate

end Warden.Sql
