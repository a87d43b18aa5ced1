import Warden.Named
import Warden.Number.Decimal
import Warden.Value.Uuid

/-! # Values

**`Value`** is the data that flows through requests, rules and rows: what a JSON text can hold, and
beside it decimals, dates, times, identifiers and the other kinds that a database returns. The
entries of a record have an order, the one in which they were written.
-/

namespace Warden

/-- A piece of data of any kind. -/
inductive Value where
  /-- The absent value. -/
  | null
  /-- A truth value. -/
  | bool (b : Bool)
  /-- An integer of any size. -/
  | int (n : Int)
  /-- A double precision number. -/
  | float (x : Binary64)
  /-- A decimal number. -/
  | decimal (d : Decimal)
  /-- A text. -/
  | text (s : String)
  /-- A string of octets. -/
  | bytes (octets : List UInt8)
  /-- A date with a time of day. -/
  | datetime (t : DateTime)
  /-- A date. -/
  | date (d : Date)
  /-- A time of day. -/
  | time (t : Time)
  /-- An identifier. -/
  | uuid (u : Uuid)
  /-- A list. -/
  | list (items : List Value)
  /-- A list of fixed length, such as a row of a result. -/
  | tuple (items : List Value)
  /-- Items without order or repetition. -/
  | set (items : List Value)
  /-- Values under names. -/
  | record (entries : List (String × Value))

instance : Inhabited Value := ⟨.null⟩

/-- Values under names, in the order in which the names were first written. -/
abbrev Record := Named Value

/-- The value under a name, absent if there is none. -/
def Record.get (r : Record) (name : String) : Value :=
  (Named.find? r name).getD .null

namespace Value

/-- The value is absent. -/
def isNull : Value → Bool
  | .null => true
  | _ => false

/-- The value is a truth value. -/
def isBool : Value → Bool
  | .bool _ => true
  | _ => false

/-- The value counts as true: it is neither absent nor false, zero or empty. -/
def truthy : Value → Bool
  | .null => false
  | .bool b => b
  | .int n => n != 0
  | .float x => !x.isZero
  | .decimal d => !d.isZero
  | .text s => !s.isEmpty
  | .bytes octets => !octets.isEmpty
  | .list items | .tuple items | .set items => !items.isEmpty
  | .record entries => !entries.isEmpty
  | .datetime _ | .date _ | .time _ | .uuid _ => true

/-- The first value if it counts as true, otherwise the second. -/
def orElse (v w : Value) : Value :=
  if v.truthy then v else w

/-- The text, if the value is one. -/
def text? : Value → Option String
  | .text s => some s
  | _ => none

/-- The entries, if the value is a record. -/
def record? : Value → Option Record
  | .record entries => some entries
  | _ => none

/-- The items, if the value is a list of either kind. -/
def items? : Value → Option (List Value)
  | .list items => some items
  | .tuple items => some items
  | _ => none

/-- The value as a number, as far as order is concerned; truth values are zero and one. -/
def number? : Value → Option Extended
  | .bool b => some (.number (Scaled.ofInt (if b then 1 else 0)))
  | .int n => some (.number (Scaled.ofInt n))
  | .float x => some x.extended
  | .decimal d => some d.extended
  | _ => none

/-- The value can be a member of a set or a key: neither what has changing members nor a number that
may not be compared can. -/
def hashable : Value → Bool
  | .list _ | .set _ | .record _ => false
  | .decimal (.nan _ signalling _) => !signalling
  | .tuple items => hashableAll items
  | _ => true
where
  /-- Every one of the values can be a member of a set. -/
  hashableAll : List Value → Bool
    | [] => true
    | v :: vs => hashable v && hashableAll vs

end Value

end Warden
