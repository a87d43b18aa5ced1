import Warden.Service.Basic

/-! # Requests for permissions

How requests of administrators to list, create, change and delete rules are answered, and how the
bodies of these requests are read. A rule that was changed is in force when the response is given:
the answers come with the service as it is from then on.
-/

namespace Warden

/-! ## Bodies -/

/-- The first of the values that stands under one of the names. -/
def firstUnder (entries : Record) (names : List String) : Value :=
  (names.findSome? fun name => Named.find? entries name).getD .null

/-- Reads an identifier from the text of a value. -/
def readUuid (name : String) (v : Value) : Outcome Uuid :=
  match Uuid.ofText? v.display with
  | some u => .ok u
  | none => refuse (.invalidUuid name)

/-- Reads a rule to be created. -/
def PermissionInput.read (body : Record) : Outcome PermissionInput := do
  let role := firstUnder body ["role_Id", "roleId"]
  if role.isNull then refuse (.missingRuleField "role_Id")
  let collection := ((body.get "collection").text?).getD ""
  if collection.isEmpty then refuse (.missingRuleField "collection")
  let some action := (body.get "action").text?.bind Action.ofName?
    | refuse (.invalidAction (body.get "action"))
  return {
    role := ← readUuid "role_Id" role
    collection, action
    fields := body.get "fields"
    conditions := body.get "conditions"
    relConditions := (body.get "relConditions").orElse (.record [])
    defaultValues := (body.get "defaultValues").orElse (.record []) }

namespace PermissionPart

/-- The name of a part in a body. -/
def name : PermissionPart → String
  | .fields => "fields"
  | .conditions => "conditions"
  | .relConditions => "relConditions"
  | .defaultValues => "defaultValues"

/-- All parts. -/
def all : List PermissionPart := [.fields, .conditions, .relConditions, .defaultValues]

/-- The part with a name. -/
def ofName? (s : String) : Option PermissionPart :=
  all.find? (·.name == s)

end PermissionPart

/-- Reads the changes of a rule. -/
def PermissionPart.readChanges (body : Record) : Outcome (List (PermissionPart × Value)) :=
  match (Named.names body).filter fun name => (ofName? name).isNone with
  | [] => .ok (body.filterMap fun (name, v) => (ofName? name).map fun part => (part, v))
  | unknown => refuse (.ruleKeysNotUpdatable (Text.sorted unknown))

/-- The rule as it is shown. -/
def Permission.toRecord (p : Permission) : Record := [
  ("id", .text p.id.toText), ("role_Id", .text p.role.toText), ("collection", .text p.collection),
  ("action", .text p.action.name), ("fields", p.fields), ("conditions", p.conditions),
  ("relConditions", p.relConditions), ("defaultValues", p.defaultValues)]

/-! ## Answers -/

namespace Service

/-- The response with a rule. -/
def permissionResponse (status : Status) (p : Permission) : Response :=
  .data status (.record p.toRecord)

/-- The service with a snapshot published. -/
def withSnapshot (s : Service) (snapshot : Snapshot) : Service :=
  { s with snapshot }

/-- Answers a dialogue that gives a response and the service from then on. A refusal leaves the
service as it was. -/
def answeredWith (s : Service) (d : Dialogue (Service × Response)) :
    Dialogue (Service × Response) := do
  match ← d.attempt with
  | .ok answer => return answer
  | .error (.refused r) => return (s, Response.ofRefusal r)
  | .error (.broken defect) => breakOff defect

/-- Answers a request for all rules. -/
def listPermissions (x : Context) : Dialogue Response :=
  Dialogue.answered do
    let ps ← x.listPermissions
    return .data .ok (.list (ps.map fun p => .record p.toRecord))

/-- Answers a request to create a rule under an identifier. -/
def createPermission (s : Service) (x : Context) (id : Uuid) (body : Record) :
    Dialogue (Service × Response) :=
  s.answeredWith do
    let i ← PermissionInput.read body
    let (p, snapshot) ← x.createPermission id i
    return (s.withSnapshot snapshot, permissionResponse .created p)

/-- The request creates a rule, as far as can be told from the caller and the body: it takes an
identifier. -/
def takesIdentifier (x : Context) (body : Record) : Bool :=
  x.caller.isAdmin && (PermissionInput.read body).toBool

/-- Answers a request to change a rule. -/
def updatePermission (s : Service) (x : Context) (id : String) (body : Record) :
    Dialogue (Service × Response) :=
  s.answeredWith do
    let id ← readUuid "permission id" (.text id)
    let changes ← PermissionPart.readChanges body
    let (p, snapshot) ← x.updatePermission id changes
    return (s.withSnapshot snapshot, permissionResponse .ok p)

/-- Answers a request to delete a rule. -/
def deletePermission (s : Service) (x : Context) (id : String) : Dialogue (Service × Response) :=
  s.answeredWith do
    let id ← readUuid "permission id" (.text id)
    let snapshot ← x.deletePermission id
    return (s.withSnapshot snapshot, .empty)

end Service

end Warden
