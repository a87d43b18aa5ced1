import Warden.Service.Items
import Warden.Service.Permissions

/-! # Calls

A **`Call`** is a request that has found its place: what is to be done, with what.
**`Service.answer`** answers it for a caller. Calls about items and permissions are answered for
known callers only; a call that carries a body needs one that is a JSON object.
-/

namespace Warden

/-- The body of a request, absent if it could not be read. -/
abbrev Body := Option Value

/-- A request that has found its place. -/
inductive Call where
  /-- Items, by parameters. -/
  | listItems (collection : String) (parameters : Record)
  /-- Items, by a body. -/
  | queryItems (collection : String) (body : Body)
  /-- A new item. -/
  | createItem (collection : String) (body : Body)
  /-- One item. -/
  | readItem (collection key : String) (parameters : Record)
  /-- A change of an item. -/
  | updateItem (collection key : String) (body : Body)
  /-- An item to be deleted. -/
  | deleteItem (collection key : String)
  /-- All permissions. -/
  | listPermissions
  /-- A new permission, with the identifier it gets. -/
  | createPermission (body : Body) (id : Uuid)
  /-- A change of a permission. -/
  | updatePermission (id : String) (body : Body)
  /-- A permission to be deleted. -/
  | deletePermission (id : String)
  /-- Whether the service is alive. -/
  | health
  /-- Whether the service is ready. -/
  | ready

namespace Service

/-- Answers by the entries of a body. -/
def withBody (s : Service) (body : Body) (f : Record → Dialogue (Service × Response)) :
    Dialogue (Service × Response) :=
  match body with
  | some (.record entries) => f entries
  | _ => return (s, .notAnObject)

/-- The service as it was, with a response. -/
def unchanged (s : Service) (d : Dialogue Response) : Dialogue (Service × Response) := do
  return (s, ← d)

/-- Answers a call of a known caller. -/
def answerKnown (s : Service) (x : Context) : Call → Dialogue (Service × Response)
  | .listItems collection parameters => s.unchanged (s.queryItems x collection parameters)
  | .queryItems collection body =>
    s.withBody body fun entries => s.unchanged (s.queryItems x collection entries)
  | .createItem collection body =>
    s.withBody body fun entries => s.unchanged (createItem x collection entries)
  | .readItem collection key parameters => s.unchanged (readItem x collection key parameters)
  | .updateItem collection key body =>
    s.withBody body fun entries => s.unchanged (updateItem x collection key entries)
  | .deleteItem collection key => s.unchanged (deleteItem x collection key)
  | .listPermissions => s.unchanged (listPermissions x)
  | .createPermission body id => s.withBody body fun entries => s.createPermission x id entries
  | .updatePermission id body => s.withBody body fun entries => s.updatePermission x id entries
  | .deletePermission id => s.deletePermission x id
  | .health => return (s, health)
  | .ready => return (s, s.ready)

/-- Answers a call, giving the service from then on. -/
def answer (s : Service) (caller : Option Caller) (now : DateTime) (call : Call) :
    Dialogue (Service × Response) :=
  match call, caller with
  | .health, _ => return (s, health)
  | .ready, _ => return (s, s.ready)
  | call, some c => s.answerKnown (s.context c now) call
  | _, none => return (s, .unauthorized)

end Service

end Warden
