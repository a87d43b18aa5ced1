import Warden.Permission.Basic
import Warden.Sql.Rendering

/-! # Statements

A **`Statement`** is one thing that the service asks of the database: to read, count or write the
rows of a collection, or to look up or write permissions, roles and stored definitions, which stand
in tables of their own. **`Statement.sent`** is what the database gets: the statements for rows of
collections are rendered, the others have a fixed text and their values in the order of its
placeholders. **`Statement.write`** is the fragment of SQL with the values where they belong.
-/

namespace Warden

open Sql

/-- One thing that is asked of the database. -/
inductive Statement where
  /-- The rows of a collection. -/
  | select (s : Select)
  /-- How many rows there are. -/
  | count (c : Count)
  /-- A change of rows of a collection. -/
  | change (c : Change)
  /-- All permissions. -/
  | permissions
  /-- The permission with an identifier. -/
  | permission (id : Uuid)
  /-- The permission for a role, a collection and an action. -/
  | permissionFor (role : Uuid) (collection : String) (action : Action)
  /-- A permission to be added. -/
  | addPermission (p : Permission)
  /-- A permission to be changed. -/
  | changePermission (p : Permission)
  /-- A permission to be removed. -/
  | removePermission (id : Uuid)
  /-- The role with an identifier. -/
  | role (id : Uuid)
  /-- The role with a name. -/
  | roleNamed (name : Value)
  /-- All roles. -/
  | roles
  /-- The stored definitions of collections. -/
  | definitions

namespace Statement

open Fragment

/-- The columns of the table of permissions. -/
def permissionColumns : String :=
  "id, role_id, collection, action, fields, conditions, rel_conditions, default_values, " ++
    "created_at, updated_at"

/-- The columns of the table of roles. -/
def roleColumns : String :=
  "id, name, description, is_tenant_specific"

/-- The beginning of every statement that reads permissions. -/
def fromPermissions : String :=
  "SELECT " ++ permissionColumns ++ " FROM permission"

/-- The beginning of every statement that reads roles. -/
def fromRoles : String :=
  "SELECT " ++ roleColumns ++ " FROM role"

/-- The text that adds a permission. -/
def insertPermission : String :=
  "INSERT INTO permission (" ++ permissionColumns ++
    ") VALUES (%s, %s, %s, %s, %s, %s, %s, %s, %s, %s)"

/-- The text that changes a permission. -/
def updatePermission : String :=
  "UPDATE permission SET fields=%s, conditions=%s, rel_conditions=%s, " ++
    "default_values=%s, updated_at=%s WHERE id=%s"

/-- The parameter for a value to be stored as JSON, or for the absent value. -/
def json? (v : Value) : Parameter :=
  if v.isNull then .plain .null else .json v

/-- What is sent for a statement. -/
def sent : Statement → Sent
  | select s => s.render.sent
  | count c => c.render.sent
  | change c => c.render.sent
  | permissions => ⟨fromPermissions ++ " ORDER BY created_at, id", []⟩
  | permission id => ⟨fromPermissions ++ " WHERE id = %s", [.plain (.uuid id)]⟩
  | permissionFor r collection action =>
    ⟨fromPermissions ++ " WHERE role_id = %s AND collection = %s AND action = %s",
      [.plain (.uuid r), .plain (.text collection), .plain (.text action.name)]⟩
  | addPermission p =>
    ⟨insertPermission,
      [.plain (.uuid p.id), .plain (.uuid p.role), .plain (.text p.collection),
        .plain (.text p.action.name), json? p.fields, json? p.conditions, .json p.relConditions,
        .json p.defaultValues, .plain p.createdAt, .plain p.updatedAt]⟩
  | changePermission p =>
    ⟨updatePermission,
      [json? p.fields, json? p.conditions, .json p.relConditions, .json p.defaultValues,
        .plain p.updatedAt, .plain (.uuid p.id)]⟩
  | removePermission id => ⟨"DELETE FROM permission WHERE id = %s", [.plain (.uuid id)]⟩
  | role id => ⟨fromRoles ++ " WHERE id = %s", [.plain (.uuid id)]⟩
  | roleNamed name => ⟨fromRoles ++ " WHERE name = %s", [.plain name]⟩
  | roles => ⟨fromRoles ++ " ORDER BY name", []⟩
  | definitions =>
    ⟨"SELECT collection_name, definition FROM schema_definition ORDER BY collection_name", []⟩

/-- A value to be stored as JSON, or the absent value. -/
def ofJson? (v : Value) : Fragment :=
  if v.isNull then ofValue .null else ofJson v

/-- The fragment of a statement. -/
def write : Statement → Fragment
  | select s => s.write
  | count c => c.write
  | change c => c.write
  | permissions => ofText (fromPermissions ++ " ORDER BY created_at, id")
  | permission id => ofText (fromPermissions ++ " WHERE id = ") ++ ofValue (.uuid id)
  | permissionFor r collection action =>
    ofText (fromPermissions ++ " WHERE role_id = ") ++ ofValue (.uuid r) ++
      ofText " AND collection = " ++ ofValue (.text collection) ++
      ofText " AND action = " ++ ofValue (.text action.name)
  | addPermission p =>
    ofText ("INSERT INTO permission (" ++ permissionColumns ++ ") VALUES (") ++
      joined ", " [ofValue (.uuid p.id), ofValue (.uuid p.role), ofValue (.text p.collection),
        ofValue (.text p.action.name), ofJson? p.fields, ofJson? p.conditions,
        ofJson p.relConditions, ofJson p.defaultValues, ofValue p.createdAt, ofValue p.updatedAt] ++
      ofText ")"
  | changePermission p =>
    ofText "UPDATE permission SET fields=" ++ ofJson? p.fields ++
      ofText ", conditions=" ++ ofJson? p.conditions ++
      ofText ", rel_conditions=" ++ ofJson p.relConditions ++
      ofText ", default_values=" ++ ofJson p.defaultValues ++
      ofText ", updated_at=" ++ ofValue p.updatedAt ++ ofText " WHERE id=" ++ ofValue (.uuid p.id)
  | removePermission id => ofText "DELETE FROM permission WHERE id = " ++ ofValue (.uuid id)
  | role id => ofText (fromRoles ++ " WHERE id = ") ++ ofValue (.uuid id)
  | roleNamed name => ofText (fromRoles ++ " WHERE name = ") ++ ofValue name
  | roles => ofText (fromRoles ++ " ORDER BY name")
  | definitions =>
    ofText "SELECT collection_name, definition FROM schema_definition ORDER BY collection_name"

end Statement

end Warden
