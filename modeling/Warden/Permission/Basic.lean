import Warden.Filter.Parser

/-! # Permissions

A **`Permission`** is a stored rule: a role may perform one action on one collection, within a list
of field paths and under conditions, and certain values are set whatever the caller sends.
Conditions and values are kept as they were written, with the variables in them.

**`Permission.check`** refuses rules that could not be put to use later.
-/

namespace Warden

/-- What can be done with items. -/
inductive Action where
  | create
  | read
  | update
  | delete
deriving DecidableEq

namespace Action

/-- The name of an action. -/
def name : Action → String
  | .create => "create"
  | .read => "read"
  | .update => "update"
  | .delete => "delete"

/-- All actions. -/
def all : List Action := [.create, .read, .update, .delete]

/-- The action with a name. -/
def ofName? (s : String) : Option Action :=
  all.find? (·.name == s)

end Action

/-- A stored rule. -/
structure Permission where
  /-- The identifier. -/
  id : Uuid
  /-- The role. -/
  role : Uuid
  /-- The collection. -/
  collection : String
  /-- The action. -/
  action : Action
  /-- The field paths, all if absent. -/
  fields : Value
  /-- The condition on the row, none if absent. -/
  conditions : Value
  /-- The conditions on related rows, by relation. -/
  relConditions : Value
  /-- The values that are set on writing, by field. -/
  defaultValues : Value
  /-- When the rule was made. -/
  createdAt : Value
  /-- When the rule was changed last. -/
  updatedAt : Value

namespace Permission

/-- The rule is the one for a role, a collection and an action. -/
def isFor (p : Permission) (role : Uuid) (collection : String) (action : Action) : Bool :=
  p.role = role && p.collection = collection && p.action = action

/-- The two rules are for the same role, collection and action. -/
def sameKey (p q : Permission) : Bool :=
  q.isFor p.role p.collection p.action

/-! ## Checking rules -/

/-- The value is a text with characters. -/
def isPath : Value → Bool
  | .text s => !s.isEmpty
  | _ => false

/-- Refuses field paths that are no list of texts. -/
def checkFields : Value → Outcome Unit
  | .null => .ok ()
  | .list items => if items.all isPath then .ok () else refuse .ruleFieldsNotPaths
  | _ => refuse .ruleFieldsNotPaths

/-- Refuses conditions that are no record. -/
def checkConditions : Value → Outcome Unit
  | .null | .record _ => .ok ()
  | _ => refuse .ruleConditionsNotObject

/-- Refuses values for names that are no fields. -/
def checkDefaults (c : Collection) : Value → Outcome Unit
  | .record entries =>
    match List.find? (fun entry => !c.hasField entry.1) entries with
    | some (name, _) => refuse (.ruleDefaultUnknown name)
    | none => .ok ()
  | _ => refuse .ruleDefaultsNotObject

/-- Refuses a rule that could not be put to use: its conditions must read against the collection and
its values must be for fields. -/
def check (p : Permission) (reader : FilterReader) : Outcome Unit := do
  let c ← reader.catalog.find p.collection
  checkFields p.fields
  checkConditions p.conditions
  let _ ← reader.parse p.collection (.raw p.conditions)
  let _ ← reader.parseRelConditions p.collection p.relConditions
  checkDefaults c p.defaultValues

end Permission

end Warden
