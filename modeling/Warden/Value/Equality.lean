import Warden.Defect
import Warden.Text.Basic
import Warden.Value.Basic

/-! # Equality and order of values

* **`Value.same`**: numbers of all kinds are compared by their exact value, so `1`, `1.0`, a decimal
  one and true are the same; records are compared without regard to order; values of unlike kinds
  differ.
* **`Value.compare`**: numbers, texts, dates, times and lists of such have an order; comparing
  unlike kinds is a defect, and so is a local time against one with an offset.
* **`Value.contains`**: membership in a list, a set, the keys of a record or a text.
-/

namespace Warden.Value

/-! ## Equality -/

/-- Equality of two values that hold no others. -/
def sameScalar (a b : Value) : Bool :=
  match a.number?, b.number? with
  | some x, some y => x.compare? y == some .eq
  | none, none =>
    match a, b with
    | .null, .null => true
    | .text s, .text t => s == t
    | .bytes s, .bytes t => s == t
    | .datetime s, .datetime t => s.same t
    | .date s, .date t => s == t
    | .time s, .time t => s == t
    | .uuid s, .uuid t => s == t
    | _, _ => false
  | _, _ => false

mutual

/-- The two values are equal. -/
def same : Value → Value → Bool
  | .list as, .list bs => sameItems as bs
  | .tuple as, .tuple bs => sameItems as bs
  | .set as, .set bs => as.length == bs.length && allAmong as bs
  | .record as, .record bs => as.length == bs.length && allEntriesIn as bs
  | .list _, _ | .tuple _, _ | .set _, _ | .record _, _ => false
  | a, b => sameScalar a b

/-- The two lists have equal items at equal places. -/
def sameItems : List Value → List Value → Bool
  | [], [] => true
  | a :: as, b :: bs => same a b && sameItems as bs
  | _, _ => false

/-- Every value of the first list is equal to one of the second. -/
def allAmong : List Value → List Value → Bool
  | [], _ => true
  | a :: as, bs => bs.any (same a) && allAmong as bs

/-- Every entry of the first record has an equal one in the second. -/
def allEntriesIn : List (String × Value) → List (String × Value) → Bool
  | [], _ => true
  | (k, a) :: as, bs =>
    (match bs.lookup k with
      | some b => same a b
      | none => false) && allEntriesIn as bs

end

/-- The items with only the first of every group of equal ones. -/
def distinct (items : List Value) : List Value :=
  items.foldl (fun seen v => if seen.any (same v) then seen else seen ++ [v]) []

/-- The value is a decimal that may not be compared. -/
def signals : Value → Bool
  | .decimal (.nan _ signalling _) => signalling
  | _ => false

/-- Equality, where comparing a number with a signalling one has no result. -/
def equals (a b : Value) : Except Defect Bool :=
  if (a.signals && b.number?.isSome) || (b.signals && a.number?.isSome) then
    .error .undefinedResult
  else .ok (same a b)

/-! ## Order -/

/-- The kind of decimal values that are no numbers; they have no place in any order. -/
def isDecimal : Value → Bool
  | .decimal _ => true
  | _ => false

/-- The order of two numbers; absent if one of them is no number. A decimal never lets such a
comparison pass. -/
def compareNumbers (a b : Value) (x y : Extended) : Except Defect (Option Ordering) :=
  match x.compare? y with
  | some o => .ok (some o)
  | none => if a.isDecimal || b.isDecimal then .error .undefinedResult else .ok none

/-- The order of two lists of code points or octets. -/
def compareNats : List Nat → List Nat → Ordering
  | [], [] => .eq
  | [], _ :: _ => .lt
  | _ :: _, [] => .gt
  | a :: as, b :: bs => (Ord.compare a b).then (compareNats as bs)

/-- The order of two values that hold no others. -/
def compareScalars (a b : Value) : Except Defect (Option Ordering) :=
  match a.number?, b.number? with
  | some x, some y => compareNumbers a b x y
  | _, _ =>
    match a, b with
    | .text s, .text t =>
      .ok (some (compareNats (s.toList.map Char.toNat) (t.toList.map Char.toNat)))
    | .bytes s, .bytes t => .ok (some (compareNats (s.map UInt8.toNat) (t.map UInt8.toNat)))
    | .datetime s, .datetime t =>
      match s.compare? t with
      | some o => .ok (some o)
      | none => .error .wrongKind
    | .date s, .date t => .ok (some (Ord.compare s.dayNumber t.dayNumber))
    | .time s, .time t => .ok (some (Ord.compare s.microseconds t.microseconds))
    | .uuid s, .uuid t => .ok (some (Ord.compare s.number t.number))
    | _, _ => .error .wrongKind

mutual

/-- The order of two values: lists by their first difference, sets by inclusion. It is absent where
neither value comes first. -/
def compare : Value → Value → Except Defect (Option Ordering)
  | .list as, .list bs => compareItems as bs
  | .tuple as, .tuple bs => compareItems as bs
  | .set as, .set bs =>
    match allAmong as bs, allAmong bs as with
    | true, true => .ok (some .eq)
    | true, false => .ok (some .lt)
    | false, true => .ok (some .gt)
    | false, false => .ok none
  | a, b => compareScalars a b

/-- The order of two lists: that of the first unequal items, otherwise the shorter one first. -/
def compareItems : List Value → List Value → Except Defect (Option Ordering)
  | [], [] => .ok (some .eq)
  | [], _ :: _ => .ok (some .lt)
  | _ :: _, [] => .ok (some .gt)
  | a :: as, b :: bs => if same a b then compareItems as bs else compare a b

end

/-- The values are equal, or can be asked for their order. -/
def comparable (a b : Value) : Bool :=
  same a b || (compare a b).toBool

/-- The first value stands before the second. -/
def isBefore (a b : Value) : Bool :=
  match compare a b with
  | .ok (some .lt) => true
  | _ => false

/-- The items in order, equal ones once; it breaks off if two of them cannot be compared. -/
def ordered (items : List Value) : Except Defect (List Value) :=
  let different := distinct items
  if items.all hashable && different.all (fun a => different.all (comparable a)) then
    .ok (different.mergeSort fun a b => !isBefore b a)
  else .error .wrongKind

/-! ## Size and membership -/

/-- How many items, entries, characters or octets a value has. -/
def size : Value → Except Defect Nat
  | .text s => .ok s.length
  | .bytes octets => .ok octets.length
  | .list items | .tuple items | .set items => .ok items.length
  | .record entries => .ok entries.length
  | _ => .error .wrongKind

/-- The items of a value, in order: those of a list, the names of a record, the characters of a
text. -/
def elements : Value → Except Defect (List Value)
  | .text s => .ok (s.toList.map fun c => .text (String.ofList [c]))
  | .bytes octets => .ok (octets.map fun o => .int o.toNat)
  | .list items | .tuple items | .set items => .ok items
  | .record entries => .ok (entries.map fun entry => .text entry.1)
  | _ => .error .wrongKind

/-- The name and the value of a pair. -/
def entry? (v : Value) : Except Defect (String × Value) := do
  match ← elements v with
  | [.text name, w] => .ok (name, w)
  | [_, _] => .error .wrongKind
  | _ => .error .invalidValue

/-- The entries of a value: those of a record, or the pairs that it lists. -/
def entries (v : Value) : Except Defect Record :=
  match v with
  | .record es => .ok es
  | v => do return Named.ofEntries (← (← elements v).mapM entry?)

/-- The octets of a value that stands for one, in a search among octets. -/
def octet? : Value → Except Defect (Option UInt8)
  | .int n => if 0 ≤ n ∧ n < 256 then .ok (some n.toNat.toUInt8) else .error .invalidValue
  | .bool b => .ok (some (if b then 1 else 0))
  | _ => .error .wrongKind

/-- One list stands as a whole somewhere in the other. -/
def isInfix (needle : List UInt8) : List UInt8 → Bool
  | [] => needle.isEmpty
  | o :: os => needle.isPrefixOf (o :: os) || isInfix needle os

/-- The value is equal to one of the items, which are looked at in order up to the first that is. -/
def isAmong (v : Value) : List Value → Except Defect Bool
  | [] => .ok false
  | item :: items => do
    if ← equals v item then return true else isAmong v items

/-- The value is a member of the container: equal to an item, a name of the record or a part of the
text. -/
def contains (container v : Value) : Except Defect Bool :=
  match container with
  | .list items | .tuple items => isAmong v items
  | .set items => if v.hashable then .ok (items.any (same v)) else .error .wrongKind
  | .record entries =>
    if v.hashable then
      match v with
      | .text s => .ok (entries.any fun entry => entry.1 == s)
      | _ => .ok false
    else .error .wrongKind
  | .text s =>
    match v with
    | .text t => .ok (Text.occursIn t.toList s.toList)
    | _ => .error .wrongKind
  | .bytes octets =>
    match v with
    | .bytes part => .ok (isInfix part octets)
    | _ => do
      match ← octet? v with
      | some o => return octets.contains o
      | none => return false
  | _ => .error .wrongKind

end Warden.Value
