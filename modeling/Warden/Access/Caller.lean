import Warden.Value.Basic

/-! # Callers

A **`Caller`** is who asks: a user, the role the permission rules are attached to, a tenant and an
address. Each part may be missing.
-/

namespace Warden

/-- A role that permission rules are attached to. -/
structure Role where
  /-- The identifier. -/
  id : Uuid
  /-- The name. -/
  name : String
  /-- What the role is for. -/
  description : Value
  /-- The role belongs to one tenant. -/
  isTenantSpecific : Bool

/-- A user known by a token. -/
structure User where
  /-- The identifier. -/
  id : Value
  /-- The name of the role, if there is one. -/
  role : Value
  /-- The user is an administrator. -/
  isAdmin : Bool
  /-- What else is known about the user. -/
  profile : Record

/-- The profile with the identity, which takes the place of entries of the same names. -/
def User.toRecord (u : User) : Record :=
  ((u.profile.insert "id" u.id).insert "role" u.role).insert "isAdmin" (.bool u.isAdmin)

/-- What variables can refer to of a role. -/
def Role.toRecord (r : Role) : Record := [
  ("id", .text r.id.toText), ("name", .text r.name), ("description", r.description),
  ("isTenantSpecific", .bool r.isTenantSpecific)]

/-- Who asks. -/
structure Caller where
  /-- The user, absent for anonymous callers. -/
  user : Option User
  /-- The role, absent if none is known. -/
  role : Option Role
  /-- The tenant. -/
  tenant : Option String
  /-- The address the request came from. -/
  ip : Option String

/-- The caller is an administrator. -/
def Caller.isAdmin (c : Caller) : Bool :=
  match c.user with
  | some u => u.isAdmin
  | none => false

end Warden
