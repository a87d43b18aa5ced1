import Warden.Access.Caller
import Warden.Access.Grant
import Warden.Permission.Basic

/-! # Snapshots of permissions

A **`Snapshot`** holds all rules as they stood when they were last read from the store. It is never
changed: **`Snapshot.publish`** makes the next one, with the next version number, from a complete
list of rules. **`Snapshot.grant`** is what a caller may do by the rules in it. Administrators may
do everything; everyone else exactly what the rule for their role, the collection and the action
says, and nothing where there is no such rule.
-/

namespace Warden

/-- All rules at one time. -/
structure Snapshot where
  /-- How many snapshots were published before and with this one. -/
  version : Nat
  /-- The rules, one for every role, collection and action. -/
  permissions : List Permission

namespace Snapshot

/-- The snapshot before any is published. -/
def empty : Snapshot where
  version := 0
  permissions := []

/-- The number of rules. -/
def size (s : Snapshot) : Nat :=
  s.permissions.length

/-- The rule for a role, a collection and an action. -/
def find? (s : Snapshot) (role : Uuid) (collection : String) (action : Action) :
    Option Permission :=
  s.permissions.find? fun p => p.isFor role collection action

/-- The rules without those for which there is an earlier one of the same key. -/
def firstOfEach (ps : List Permission) : List Permission :=
  ps.foldl (fun kept p => if kept.any p.sameKey then kept else kept ++ [p]) []

/-- The next snapshot, made of a complete list of rules. -/
def publish (s : Snapshot) (ps : List Permission) : Snapshot where
  version := s.version + 1
  permissions := firstOfEach ps

end Snapshot

/-- What a rule grants. -/
def Permission.grant (p : Permission) (reader : FilterReader) : Outcome Grant := do
  let allowlist ← Allowlist.ofFields p.fields
  let condition ← reader.parse p.collection (.raw p.conditions)
  let relConditions ← reader.parseRelConditions p.collection p.relConditions
  let defaultValues ← Outcome.ofDefect p.defaultValues.entries
  return {
    allowlist, condition, relConditions, defaultValues
    unrestricted := false
    denied := false }

/-- What a caller may do with a collection. -/
def Snapshot.grant (s : Snapshot) (reader : FilterReader) (caller : Caller) (collection : String)
    (action : Action) : Outcome Grant :=
  if caller.isAdmin then .ok .admin
  else
    match caller.role with
    | none => .ok .deny
    | some role =>
      match s.find? role.id collection action with
      | none => .ok .deny
      | some p => p.grant reader

end Warden
