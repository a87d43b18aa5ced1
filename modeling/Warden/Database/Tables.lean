import Warden.Access.Caller
import Warden.Database.Dialogue

/-! # Permissions, roles and definitions in the database

Looking up and writing the rows of the tables that the service keeps for itself.
-/

namespace Warden

/-! ## Permissions -/

/-- The permission of a row. -/
def Permission.ofRow (r : Row) : Outcome Permission := do
  let id ← r.uuid 0
  let role ← r.uuid 1
  let collection ← r.text 2
  let some action := (← r.cell 3).text?.bind Action.ofName? | breakOff .invalidValue
  let fields ← match ← r.cell 4 with
    | .null => pure .null
    | v => do pure (.list (← v.elements))
  return {
    id, role, collection, action, fields
    conditions := ← r.cell 5
    relConditions := (← r.cell 6).orElse (.record [])
    defaultValues := (← r.cell 7).orElse (.record [])
    createdAt := ← r.cell 8
    updatedAt := ← r.cell 9 }

namespace Permission

/-- All permissions. -/
def fetchAll : Dialogue (List Permission) := do
  let rows ← Dialogue.execute .permissions
  Dialogue.done (rows.mapM ofRow)

/-- The permission in the first row of a result, if there is one. -/
def ofFirst? (rows : List Row) : Outcome (Option Permission) :=
  match Row.first? rows with
  | some r => do return some (← ofRow r)
  | none => .ok none

/-- The permission with an identifier. -/
def fetch? (id : Uuid) : Dialogue (Option Permission) := do
  ofFirst? (← Dialogue.execute (.permission id))

/-- The permission for a role, a collection and an action. -/
def fetchFor? (role : Uuid) (collection : String) (action : Action) :
    Dialogue (Option Permission) := do
  ofFirst? (← Dialogue.execute (.permissionFor role collection action))

/-- Adds the permission. -/
def store (p : Permission) : Dialogue Unit := do
  let _ ← Dialogue.execute (.addPermission p)
  return ()

/-- Writes what has changed of the permission. -/
def update (p : Permission) : Dialogue Unit := do
  let _ ← Dialogue.execute (.changePermission p)
  return ()

/-- Removes the permission with an identifier. -/
def remove (id : Uuid) : Dialogue Unit := do
  let _ ← Dialogue.execute (.removePermission id)
  return ()

end Permission

/-! ## Roles -/

/-- The role of a row. -/
def Role.ofRow (r : Row) : Outcome Role := do
  return {
    id := ← r.uuid 0
    name := ← r.text 1
    description := ← r.cell 2
    isTenantSpecific := (← r.cell 3).truthy }

namespace Role

/-- The role in the first row of a result, if there is one. -/
def ofFirst? (rows : List Row) : Outcome (Option Role) :=
  match Row.first? rows with
  | some r => do return some (← ofRow r)
  | none => .ok none

/-- The role with an identifier. -/
def fetch? (id : Uuid) : Dialogue (Option Role) := do
  ofFirst? (← Dialogue.execute (.role id))

/-- The role with a name. -/
def fetchNamed? (name : Value) : Dialogue (Option Role) := do
  ofFirst? (← Dialogue.execute (.roleNamed name))

/-- All roles. -/
def fetchAll : Dialogue (List Role) := do
  let rows ← Dialogue.execute .roles
  Dialogue.done (rows.mapM ofRow)

end Role

/-! ## Definitions -/

/-- The name and the definition in a row. -/
def definitionOfRow (r : Row) : Outcome (String × Value) := do
  return (← r.text 0, ← r.cell 1)

/-- The stored definitions of collections, by name. -/
def fetchDefinitions : Dialogue Record := do
  let rows ← Dialogue.execute .definitions
  Dialogue.done ((rows.mapM definitionOfRow).map Named.ofEntries)

end Warden
