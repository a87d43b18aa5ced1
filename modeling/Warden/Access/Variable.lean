import Warden.Access.Caller
import Warden.Filter.Basic
import Warden.Text.Word

/-! # Variables

A text that is exactly a token stands for a value known only when a request is made: the caller's
user, role or tenant, something in the profile of the user or the role, or the time of the
request, moved by a number of calendar units. Other texts stand for themselves, also those that
merely hold a token. A line break at the very end does not belong to the token.

* **`Variable.ofText?`** recognises tokens.
* **`Resolver.resolve`** puts values in the place of tokens, at any depth of a value but not in
  names.
* **`Resolver.resolveFilter`** does so in every condition and checks the shape of the new value.
-/

namespace Warden

/-- The units by which a time is moved. -/
inductive CalendarUnit where
  | years
  | months
  | weeks
  | days
  | hours
  | minutes
  | seconds
deriving DecidableEq

namespace CalendarUnit

/-- The units by their names in tokens. -/
def names : List (String × CalendarUnit) := [
  ("YEARS", .years), ("MONTHS", .months), ("WEEKS", .weeks), ("DAYS", .days), ("HOURS", .hours),
  ("MINUTES", .minutes), ("SECONDS", .seconds)]

/-- Moves a time by a number of units. -/
def shift (unit : CalendarUnit) (amount : Int) (t : DateTime) :
    Except DateTime.ShiftError DateTime :=
  match unit with
  | .years => t.addMonths? (12 * amount)
  | .months => t.addMonths? amount
  | .weeks => t.addSeconds? (604800 * amount)
  | .days => t.addSeconds? (86400 * amount)
  | .hours => t.addSeconds? (3600 * amount)
  | .minutes => t.addSeconds? (60 * amount)
  | .seconds => t.addSeconds? amount

end CalendarUnit

/-- A distance in time as written in a token. -/
structure TimeShift where
  /-- Into the past. -/
  back : Bool
  /-- The unit. -/
  unit : CalendarUnit
  /-- The digits of the number of units. -/
  digits : List Nat

/-- What a token stands for. -/
inductive Variable where
  /-- The user's identifier, or something in the profile. -/
  | user (path : Option String)
  /-- The role's identifier, or something known about the role. -/
  | role (path : Option String)
  /-- The tenant. -/
  | tenant
  /-- The time of the request, possibly moved. -/
  | now (shift : Option TimeShift)

namespace Variable

/-- The text after a beginning, if it has that beginning. -/
def after? (beginning : String) (cs : List Char) : Option (List Char) :=
  if beginning.toList.isPrefixOf cs then some (cs.drop beginning.length) else none

/-- The text without one line break at its end. -/
def withoutLineBreak (cs : List Char) : List Char :=
  if cs.getLast? = some '\n' then cs.dropLast else cs

/-- The path after the name of a user or role token: nothing, or a point and a path of word
characters and points. -/
def readPath? : List Char → Option (Option String)
  | [] => some none
  | c :: path =>
    if c = '.' ∧ ¬ path.isEmpty ∧ path.all (fun c => Text.isWord c || c == '.') then
      some (some (String.ofList path))
    else none

/-- The shift after the name of the time token: nothing, or a sign, a unit, an underscore and
digits. -/
def readShift? : List Char → Option (Option TimeShift)
  | [] => some none
  | sign :: rest =>
    if sign = '+' ∨ sign = '-' then do
      let (unit, amount) ← Text.cutFirst '_' rest
      let unit ← CalendarUnit.names.lookup (String.ofList unit)
      let digits ← amount.mapM Text.digitValue?
      if digits.isEmpty then none else some (some ⟨sign == '-', unit, digits⟩)
    else none

/-- The token for the tenant. -/
def tenantToken : String := "$CURRENT_TENANT"

/-- The variable that a token stands for. -/
def ofText? (s : String) : Option Variable :=
  if s = tenantToken then some .tenant
  else
    let cs := withoutLineBreak s.toList
    let user := (after? "$CURRENT_USER" cs).bind fun rest => (readPath? rest).map Variable.user
    let role := (after? "$CURRENT_ROLE" cs).bind fun rest => (readPath? rest).map Variable.role
    let now := (after? "$NOW" cs).bind fun rest => (readShift? rest).map Variable.now
    user.or (role.or now)

end Variable

namespace Value

/-- The value is a token. -/
def isVariable : Value → Bool
  | .text s => (Variable.ofText? s).isSome
  | _ => false

mutual

/-- The value is or holds a token. -/
def hasVariable : Value → Bool
  | .text s => (Variable.ofText? s).isSome
  | .list items | .tuple items => anyVariable items
  | .record entries => anyEntryVariable entries
  | _ => false

/-- One of the values is or holds a token. -/
def anyVariable : List Value → Bool
  | [] => false
  | v :: vs => hasVariable v || anyVariable vs

/-- One of the entries is or holds a token. -/
def anyEntryVariable : List (String × Value) → Bool
  | [] => false
  | (_, v) :: es => hasVariable v || anyEntryVariable es

end

end Value

/-- What variables stand for during one request. -/
structure Resolver where
  /-- Who asks. -/
  caller : Caller
  /-- The time of the request, the same for all of its variables. -/
  now : DateTime

namespace Resolver

/-- The value at a dotted path of a record. -/
def lookup (token path : String) : Value → List String → Outcome Value
  | v, [] => .ok v
  | v, segment :: rest =>
    match v.record? with
    | some entries =>
      match Named.find? entries segment with
      | some w => lookup token path w rest
      | none => refuse (.unknownVariableField token path)
    | none => refuse (.unknownVariableField token path)

/-- The greatest number of digits of a shift. -/
def digitLimit : Nat := 4300

/-- The time of the request, moved. -/
def moved (r : Resolver) (shift : TimeShift) : Outcome Value :=
  if digitLimit < shift.digits.length then breakOff .invalidValue
  else
    let amount : Int := Text.numberOfDigits shift.digits
    match shift.unit.shift (if shift.back then -amount else amount) r.now with
    | .ok t => .ok (.datetime t)
    | .error .year => breakOff .invalidValue
    | .error .distance => breakOff .overflow

/-- The value of a variable. -/
def value (r : Resolver) (token : String) : Variable → Outcome Value
  | .user path =>
    match r.caller.user with
    | none => refuse .accessDenied
    | some u =>
      match path with
      | none => .ok u.id
      | some path => lookup token path (.record u.toRecord) (Text.split '.' path)
  | .role path =>
    match r.caller.role with
    | none => refuse .accessDenied
    | some role =>
      match path with
      | none => .ok (.text role.id.toText)
      | some path => lookup token path (.record role.toRecord) (Text.split '.' path)
  | .tenant =>
    match r.caller.tenant with
    | none => refuse .accessDenied
    | some tenant => .ok (.text tenant)
  | .now shift =>
    match shift with
    | none => .ok (.datetime r.now)
    | some shift => r.moved shift

/-- The value of a token; a text that is no token stands for itself. -/
def resolveText (r : Resolver) (s : String) : Outcome Value :=
  match Variable.ofText? s with
  | some meaning => r.value s meaning
  | none => .ok (.text s)

mutual

/-- The value with every token replaced, from left to right. -/
def resolve (r : Resolver) : Value → Outcome Value
  | .text s => r.resolveText s
  | .list items => do return .list (← resolveItems r items)
  | .tuple items => do return .tuple (← resolveItems r items)
  | .record entries => do return .record (← resolveEntries r entries)
  | v => .ok v

/-- The values with every token replaced. -/
def resolveItems (r : Resolver) : List Value → Outcome (List Value)
  | [] => .ok []
  | v :: vs => do
    let v ← resolve r v
    return v :: (← resolveItems r vs)

/-- The entries with every token in their values replaced. -/
def resolveEntries (r : Resolver) : List (String × Value) → Outcome (List (String × Value))
  | [] => .ok []
  | (name, v) :: es => do
    let v ← resolve r v
    return (name, v) :: (← resolveEntries r es)

end

/-- The condition with every token of its value replaced. A new value is checked again. -/
def resolveCondition (r : Resolver) (c : Condition) : Outcome Filter :=
  if c.value.hasVariable then do
    let v ← r.resolve c.value
    c.operator.checkValue v c.field
    return .leaf { c with value := v }
  else .ok (.leaf c)

/-- The filter with every token replaced. -/
def resolveFilter (r : Resolver) (f : Filter) : Outcome Filter :=
  f.mapConditions r.resolveCondition

end Resolver

end Warden
