import Warden.Filter.Basic
import Warden.Filter.Truth
import Warden.Pattern.Like
import Warden.Pattern.Reader

/-! # Evaluating filters on a record

A filter is decided on a record that is not stored yet. Conditions that cannot be decided from the
record alone are unknown: paths through relations, geometries, paths in JSON, and values that
cannot be compared. A record matches only when the whole filter holds.

* **`Condition.test`** compares the record's value with the condition's, or breaks off.
* **`Condition.evaluate`** takes most ways of breaking off for unknown; a list that is too short and
  a missing key are not among them.
* **`Filter.evaluate`** combines the conditions and stops at the first one that settles a
  connective.
-/

namespace Warden

/-! ## Comparing single values -/

namespace Value

/-- Brings the record's value and the condition's to one kind where one of them is a text: dates and
times are read as ISO texts, numbers as decimals, and identifiers are compared by their text. -/
def align (actual expected : Value) : Except Defect (Value × Value) :=
  match actual, expected with
  | .text s, .datetime t =>
    match DateTime.ofIso? s with
    | some a => .ok (.datetime a, .datetime t)
    | none => .error .invalidValue
  | .text s, .date d =>
    match Date.ofIso? s with
    | some a => .ok (.date a, .date d)
    | none => .error .invalidValue
  | .datetime t, .text s =>
    match DateTime.ofIso? s with
    | some e => .ok (.datetime t, .datetime e)
    | none => .error .invalidValue
  | a, .uuid u => .ok (.text a.display, .text u.toText)
  | .uuid u, e => .ok (.text u.toText, .text e.display)
  | .text s, e =>
    if e.number?.isSome then
      match Decimal.ofText? s, Decimal.ofText? e.display with
      | some a, some b => .ok (.decimal a, .decimal b)
      | _, _ => .error .undefinedResult
    else .ok (.text s, e)
  | a, e => .ok (a, e)

/-- The record's value equals the condition's. -/
def matchesValue (actual expected : Value) : Except Defect Bool :=
  match actual with
  | .null => .ok expected.isNull
  | _ => do
    let (a, e) ← align actual expected
    equals a e

/-- The record's value equals one of the values. -/
def matchesOne (actual : Value) : List Value → Except Defect Bool
  | [] => .ok false
  | e :: es => do
    if ← matchesValue actual e then return true else matchesOne actual es

/-- The record's value stands in one of the given orders to the condition's. -/
def isOrderedAs (orders : List Ordering) (actual expected : Value) : Except Defect Bool := do
  let (a, e) ← align actual expected
  match ← compare a e with
  | some o => return orders.contains o
  | none => return false

/-- The value at a place of a list or text. -/
def itemAt (v : Value) (n : Nat) : Except Defect Value :=
  match v with
  | .list items | .tuple items =>
    match items[n]? with
    | some item => .ok item
    | none => .error .missingIndex
  | .text s =>
    match s.toList[n]? with
    | some c => .ok (.text (String.ofList [c]))
    | none => .error .missingIndex
  | .bytes octets =>
    match octets[n]? with
    | some o => .ok (.int o.toNat)
    | none => .error .missingIndex
  | .record _ => .error .missingKey
  | _ => .error .wrongKind

/-- The record's value lies between the two values of the condition, ends included. -/
def isBetween (actual expected : Value) : Except Defect Bool := do
  let (a, low) ← align actual (← itemAt expected 0)
  let (_, high) ← align actual (← itemAt expected 1)
  match ← compare low a with
  | some .lt | some .eq =>
    match ← compare a high with
    | some .lt | some .eq => return true
    | _ => return false
  | _ => return false

/-- The two values are the same truth value. -/
def isBool? (b : Bool) : Value → Bool
  | .bool c => b == c
  | _ => false

/-- The value is absent or has no items. -/
def isEmptyValue (v : Value) : Except Defect Bool :=
  match v with
  | .null => .ok true
  | v => do return (← v.size) == 0

/-- Every value is a member of the container. -/
def containsAll (container : Value) : List Value → Except Defect Bool
  | [] => .ok true
  | v :: vs => do
    if ← container.contains v then containsAll container vs else return false

/-- One of the values is a member of the container. -/
def containsAny (container : Value) : List Value → Except Defect Bool
  | [] => .ok false
  | v :: vs => do
    if ← container.contains v then return true else containsAny container vs

mutual

/-- The value, or an item of it at any depth, equals a single value. -/
def findScalar (e : Value) : Value → Except Defect Bool
  | .list items => findScalarAmong e items
  | a => a.equals e

/-- One of the items, or an item of it at any depth, equals a single value. -/
def findScalarAmong (e : Value) : List Value → Except Defect Bool
  | [] => .ok false
  | a :: as => do
    if ← findScalar e a then return true else findScalarAmong e as

end

mutual

/-- The first JSON value is contained in the second: a record with its entries, a list with every
item in one of the others, and a single value also as an item of a list. -/
def isContainedIn : Value → Value → Except Defect Bool
  | .record entries, actual =>
    match actual with
    | .record as => entriesAreContainedIn entries as
    | _ => .ok false
  | .list items, actual =>
    match actual with
    | .list as => itemsAreContainedIn items as
    | _ => .ok false
  | e, actual => findScalar e actual

/-- The record has a containing value for every entry. -/
def entriesAreContainedIn : List (String × Value) → List (String × Value) → Except Defect Bool
  | [], _ => .ok true
  | (name, e) :: es, as =>
    match as.lookup name with
    | some a => do
      if ← isContainedIn e a then entriesAreContainedIn es as else return false
    | none => .ok false

/-- Every item is contained in one of the others. -/
def itemsAreContainedIn : List Value → List Value → Except Defect Bool
  | [], _ => .ok true
  | e :: es, as => do
    if ← as.anyM (isContainedIn e) then itemsAreContainedIn es as else return false

end

end Value

/-! ## Conditions -/

namespace Operator

/-- Conditions with the operator are never decided on a record. -/
def undecidable : Operator → Bool
  | .jsonPath | .within | .containsGeo | .intersects | .nIntersects | .overlaps | .dwithin => true
  | _ => false

/-- The comparison of two texts, for the operators that compare texts. -/
def textTest? (op : Operator) (actual expected : String) : Option (Except Defect Bool) :=
  let a := actual.toList
  let e := expected.toList
  match op with
  | .like => some (.ok (LikePlace.likes expected actual))
  | .notLike => some (.ok (!LikePlace.likes expected actual))
  | .iLike => some (.ok (LikePlace.likesAnyCase expected actual))
  | .notILike => some (.ok (!LikePlace.likesAnyCase expected actual))
  | .contains => some (.ok (Text.occursIn e a))
  | .icontains => some (.ok (Text.occursIn (Text.lower expected).toList (Text.lower actual).toList))
  | .ncontains => some (.ok (!Text.occursIn e a))
  | .startsWith => some (.ok (Text.beginsWith e a))
  | .endsWith => some (.ok (Text.endsWith e a))
  | .nstartsWith => some (.ok (!Text.beginsWith e a))
  | .nendsWith => some (.ok (!Text.endsWith e a))
  | .regex => some (Pattern.search expected actual)
  | _ => none

/-- The comparison of a present value. -/
def testPresent (op : Operator) (actual expected : Value) : Except Defect Bool :=
  match op with
  | .eq => actual.matchesValue expected
  | .isIn => do actual.matchesOne (← expected.elements)
  | .gt => actual.isOrderedAs [.gt] expected
  | .gte => actual.isOrderedAs [.gt, .eq] expected
  | .lt => actual.isOrderedAs [.lt] expected
  | .lte => actual.isOrderedAs [.lt, .eq] expected
  | .between => actual.isBetween expected
  | .nbetween => do return !(← actual.isBetween expected)
  | .arrayContains => do actual.containsAll (← expected.elements)
  | .arrayContainsAny => do actual.containsAny (← expected.elements)
  | .arrayContained => do expected.containsAll (← actual.elements)
  | .arrayLength => do (Value.int (← actual.size)).equals expected
  | .jsonContains => expected.isContainedIn actual
  | .jsonHasKey =>
    match actual with
    | .record _ => actual.contains expected
    | _ => .ok false
  | .jsonHasAnyKeys =>
    match actual with
    | .record _ => do actual.containsAny (← expected.elements)
    | _ => .ok false
  | .jsonHasAllKeys =>
    match actual with
    | .record _ => do actual.containsAll (← expected.elements)
    | _ => .ok false
  | op => (op.textTest? actual.display expected.display).getD (.ok false)

/-- The comparison of the record's value with the condition's. An absent value meets only the
operators that ask for absence or difference. -/
def test (op : Operator) (actual expected : Value) : Except Defect Bool :=
  match op with
  | .isNull => .ok (expected.isBool? actual.isNull)
  | .empty | .arrayEmpty => do return expected.isBool? (← actual.isEmptyValue)
  | .neq => do return !(← actual.matchesValue expected)
  | .notIn =>
    match actual with
    | .null => .ok true
    | _ => do return !(← actual.matchesOne (← expected.elements))
  | op =>
    match actual with
    | .null => .ok false
    | _ => op.testPresent actual expected

end Operator

/-- Breaking off this way leaves a condition unknown. -/
def Defect.undecided : Defect → Bool
  | .wrongKind | .invalidValue | .overflow | .undefinedResult | .badPattern => true
  | .tooDeep | .missingIndex | .missingKey | .missingMember | .noStore | .storeFailure => false

namespace Condition

/-- The condition on a record, as far as it can be decided. -/
def evaluate (c : Condition) (record : Record) : Except Defect Truth :=
  if Text.hasChar '.' c.field || c.operator.undecidable then .ok .unknown
  else
    match c.operator.test (record.get c.field) c.value with
    | .ok b => .ok (Truth.ofBool b)
    | .error d => if d.undecided then .ok .unknown else .error d

end Condition

/-! ## Filters -/

namespace Filter

mutual

/-- The filter on a record, as far as it can be decided. -/
def evaluate (record : Record) : Filter → Except Defect Truth
  | .leaf c => c.evaluate record
  | .conj fs => evaluateAll record fs
  | .disj fs => evaluateAny record fs
  | .neg f => do return (← evaluate record f).not
  | .all => .ok .holds
  | .none => .ok .fails

/-- The conjunction of the filters; what follows one that fails is not looked at. -/
def evaluateAll (record : Record) : List Filter → Except Defect Truth
  | [] => .ok .holds
  | f :: fs => do
    match ← evaluate record f with
    | .fails => return .fails
    | t => return t.and (← evaluateAll record fs)

/-- The disjunction of the filters; what follows one that holds is not looked at. -/
def evaluateAny (record : Record) : List Filter → Except Defect Truth
  | [] => .ok .fails
  | f :: fs => do
    match ← evaluate record f with
    | .holds => return .holds
    | t => return t.or (← evaluateAny record fs)

end

/-- The record definitely satisfies the filter. -/
def admits (f : Filter) (record : Record) : Except Defect Bool := do
  return (← f.evaluate record) == .holds

end Filter

end Warden
