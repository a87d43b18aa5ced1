import Warden.Access.Grant
import Warden.Access.Variable
import Warden.Schema.Collection

/-! # Payloads of items

What a caller sends to create or change an item: values for fields, keys of related items, and whole
related items under the names of relations. **`Payload.prepare`** checks every name against the
collection and every name against the grant, and sets the grant's own values last, so that they
always win.
-/

namespace Warden

/-- What is written behind a relation of an item. -/
structure RelatedWrite where
  /-- The relation. -/
  relation : Relation
  /-- The column that identifies the rows of the target. -/
  targetKey : String
  /-- The items to be created. -/
  rows : List Record
  /-- The keys of the items to be linked. -/
  keys : List Value

/-- What is written for an item. -/
structure Payload where
  /-- The values of its columns. -/
  values : Record
  /-- What is written behind its relations. -/
  related : List RelatedWrite

namespace Payload

/-- Refuses names that are no fields of the target or that the allowlist hides. -/
def checkNested (target : Collection) (a : Allowlist) : List String → Outcome Unit
  | [] => .ok ()
  | name :: rest =>
    if !target.hasField name then refuse (.unknownPayloadField name target.name)
    else if !a.allowsField name then refuse .accessDenied
    else checkNested target a rest

/-- Adds the items sent for a relation: records are items to be created, all else are keys. -/
def addItems (target : Collection) (a : Allowlist) :
    List Value → RelatedWrite → Outcome RelatedWrite
  | [], w => .ok w
  | .record entries :: rest, w => do
    checkNested target a (Named.names entries)
    addItems target a rest { w with rows := w.rows ++ [entries] }
  | v :: rest, w => addItems target a rest { w with keys := w.keys ++ [v] }

/-- What is sent for a relation: one item, or a list of them. -/
def relatedItems (r : Relation) (v : Value) : Outcome (List Value) :=
  match r.isToOne, v with
  | true, .list _ => refuse (.relationTakesOne r.name)
  | true, v => .ok [v]
  | false, .list items => .ok items
  | false, _ => refuse (.relationTakesList r.name)

/-- What is written for a relation under its part of the allowlist. -/
def relatedWrite (k : Catalog) (r : Relation) (a : Allowlist) (v : Value) :
    Outcome RelatedWrite := do
  let some target := k.find? r.target | refuse (.relationTargetUnknown r.name r.target)
  let items ← relatedItems r v
  addItems target a items ⟨r, target.primaryKey, [], []⟩

/-- The value is a whole item or a list. -/
def isNested : Value → Bool
  | .record _ | .list _ => true
  | _ => false

/-- Adds one entry of what the caller sent. -/
def addEntry (k : Catalog) (c : Collection) (a : Allowlist) (p : Payload) (name : String)
    (v : Value) : Outcome Payload :=
  match c.relation? name with
  | some r =>
    if !a.allowsRelation name then refuse .accessDenied
    else if r.isToOne && !isNested v then
      match r.foreignKey with
      | none => refuse (.relationWithoutForeignKey name)
      | some key => .ok { p with values := p.values.insert key v }
    else do
      let w ← relatedWrite k r (a.forRelation name) v
      return { p with related := p.related ++ [w] }
  | none =>
    if !c.hasField name then refuse (.unknownPayloadField name c.name)
    else if !a.allowsField name then refuse .accessDenied
    else .ok { p with values := p.values.insert name v }

/-- Sets one of the grant's own values. -/
def setDefault (c : Collection) (r : Resolver) (p : Payload) (name : String) (v : Value) :
    Outcome Payload :=
  if !c.hasField name then refuse (.unknownDefaultField name c.name)
  else do
    let v ← r.resolve v
    return { p with values := p.values.insert name v }

/-- What is written for an item of a collection under a grant. -/
def prepare (k : Catalog) (c : Collection) (grant : Grant) (r : Resolver) (data : Value) :
    Outcome Payload :=
  match data with
  | .record entries => do
    let sent ← entries.foldlM (fun p (name, v) => addEntry k c grant.allowlist p name v) ⟨[], []⟩
    grant.defaultValues.foldlM (fun p (name, v) => setDefault c r p name v) sent
  | _ => refuse .payloadNotObject

end Payload

end Warden
