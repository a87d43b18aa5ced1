import Warden.Database.Tables
import Warden.Item.Context

/-! # Managing permissions

Administrators list, create, change and remove rules. Every change is one transaction, after which
all rules are read anew and published, so the change is in force when the caller gets the answer. A
change therefore gives the next snapshot beside its result.
-/

namespace Warden

/-- A rule to be created. -/
structure PermissionInput where
  /-- The role. -/
  role : Uuid
  /-- The collection. -/
  collection : String
  /-- The action. -/
  action : Action
  /-- The field paths. -/
  fields : Value
  /-- The condition on the row. -/
  conditions : Value
  /-- The conditions on related rows. -/
  relConditions : Value
  /-- The values that are set on writing. -/
  defaultValues : Value

/-- The parts of a rule that can be changed. -/
inductive PermissionPart where
  | fields
  | conditions
  | relConditions
  | defaultValues
deriving DecidableEq

namespace Permission

/-- The value of a part, an absent one standing for an empty record where the part must be one. -/
def partValue (part : PermissionPart) (v : Value) : Value :=
  match part, v with
  | .relConditions, .null | .defaultValues, .null => .record []
  | _, v => v

/-- The rule with one part replaced. -/
def set (p : Permission) (part : PermissionPart) (v : Value) : Permission :=
  let v := partValue part v
  match part with
  | .fields => { p with fields := v }
  | .conditions => { p with conditions := v }
  | .relConditions => { p with relConditions := v }
  | .defaultValues => { p with defaultValues := v }

/-- The rule with several parts replaced. -/
def setAll (p : Permission) (changes : List (PermissionPart × Value)) : Permission :=
  changes.foldl (fun p (part, v) => p.set part v) p

/-- The rule of an input. -/
def ofInput (id : Uuid) (now : DateTime) (i : PermissionInput) : Permission where
  id := id
  role := i.role
  collection := i.collection
  action := i.action
  fields := i.fields
  conditions := i.conditions
  relConditions := i.relConditions
  defaultValues := i.defaultValues
  createdAt := .datetime now
  updatedAt := .datetime now

end Permission

namespace Snapshot

/-- Loads the rules anew: all rules in the store are read, to be published as the snapshot after the
one that is in force by then. One call at a time does so. -/
def reloading : Dialogue (Snapshot → Snapshot) := do
  let ps ← Permission.fetchAll.transaction
  return fun s => s.publish ps

/-- The next snapshot, if this one is still in force when the rules are read. -/
def reload (s : Snapshot) : Dialogue Snapshot := do
  return (← reloading) s

/-- The next snapshot of rules that may be kept without a store, from which they could be read. -/
def reloadFrom (hasStore : Bool) (s : Snapshot) : Dialogue Snapshot := do
  unless hasStore do breakOff .noStore
  s.reload

end Snapshot

namespace Context

/-- Refuses callers who are no administrators. -/
def checkAdmin (x : Context) : Outcome Unit :=
  if x.caller.isAdmin then .ok () else refuse .accessDenied

/-- All rules. -/
def listPermissions (x : Context) : Dialogue (List Permission) := do
  x.checkAdmin
  Permission.fetchAll.transaction

/-- Adds a rule, unless its role is unknown or has one for the collection and the action. -/
def addPermission (p : Permission) : Dialogue Unit := do
  let some role ← Role.fetch? p.role | refuse (.notFound .role p.role.toText)
  match ← Permission.fetchFor? p.role p.collection p.action with
  | some _ => refuse (.ruleExists role.name p.action.name p.collection)
  | none => p.store

/-- Creates a rule. -/
def createPermission (x : Context) (id : Uuid) (i : PermissionInput) :
    Dialogue (Permission × Snapshot) := do
  x.checkAdmin
  let p := Permission.ofInput id x.now i
  p.check x.reader
  (addPermission p).transaction
  return (p, ← x.snapshot.reload)

/-- Changes parts of the rule with an identifier and gives the changed rule. -/
def changePermission (x : Context) (id : Uuid) (changes : List (PermissionPart × Value)) :
    Dialogue Permission := do
  let some p ← Permission.fetch? id | refuse (.notFound .permission id.toText)
  let p := { p.setAll changes with updatedAt := .datetime x.now }
  p.check x.reader
  p.update
  return p

/-- Changes parts of a rule. -/
def updatePermission (x : Context) (id : Uuid) (changes : List (PermissionPart × Value)) :
    Dialogue (Permission × Snapshot) := do
  x.checkAdmin
  let p ← (x.changePermission id changes).transaction
  return (p, ← x.snapshot.reload)

/-- Removes the rule with an identifier, which must be there. -/
def removePermission (id : Uuid) : Dialogue Unit := do
  let some _ ← Permission.fetch? id | refuse (.notFound .permission id.toText)
  Permission.remove id

/-- Deletes a rule. -/
def deletePermission (x : Context) (id : Uuid) : Dialogue Snapshot := do
  x.checkAdmin
  (removePermission id).transaction
  x.snapshot.reload

end Context

end Warden
