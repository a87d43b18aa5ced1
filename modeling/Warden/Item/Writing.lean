import Warden.Database.Items
import Warden.Filter.Evaluation
import Warden.Item.Context
import Warden.Item.Payload
import Warden.Item.Security

/-! # Writing items

Creating, changing and deleting items with everything that is sent behind their relations, each as
one transaction.

* Targets of relations to one row are created before the item, whose columns hold their keys;
  targets of relations to many rows after it, since they are linked by its key.
* **`Context.createItem`** writes nothing unless the values that were sent for the new item, and the
  grant's own ones, satisfy the grant's condition.
* **`Context.updateItem`** and **`Context.deleteItem`** reach only the row with the key, and only
  under the grant's conditions.
-/

namespace Warden

namespace Payload

/-! ## Related items -/

/-- Creates the targets of relations to one row and puts their keys into the item's columns. -/
def writeToOne (k : Catalog) : List RelatedWrite → Record → Dialogue Record
  | [], values => return values
  | w :: rest, values =>
    match w.relation.isToOne, w.rows with
    | true, row :: _ =>
      match w.relation.foreignKey with
      | none => refuse (.relationWithoutForeignKey w.relation.name)
      | some column => do
        let key ← k.insertItem w.relation.target row
        writeToOne k rest (values.insert column key)
    | _, _ => writeToOne k rest values

/-- Creates items whose column holds a key. -/
def insertOwned (k : Catalog) (target column : String) (key : Value) : List Record → Dialogue Unit
  | [] => return ()
  | row :: rest => do
    let _ ← k.insertItem target (row.insert column key)
    insertOwned k target column key rest

/-- Creates items and gives their keys. -/
def insertAll (k : Catalog) (target : String) : List Record → Dialogue (List Value)
  | [] => return []
  | row :: rest => do
    let key ← k.insertItem target row
    return key :: (← insertAll k target rest)

/-- Creates and links the targets of a relation whose rows hold the key of the item. -/
def writeOneToMany (k : Catalog) (w : RelatedWrite) (key : Value) : Dialogue Unit := do
  let some column := w.relation.foreignKey | refuse (.relationWithoutForeignKey w.relation.name)
  insertOwned k w.relation.target column key w.rows
  if w.keys.isEmpty then return ()
  let linked : Filter := .leaf ⟨w.targetKey, .isIn, .list w.keys, none⟩
  let _ ← k.updateItems w.relation.target linked [(column, key)] []
  return ()

/-- Creates the targets of a relation with a joining table and links them with the item. -/
def writeManyToMany (k : Catalog) (w : RelatedWrite) (key : Value) : Dialogue Unit := do
  let created ← insertAll k w.relation.target w.rows
  let keys := w.keys ++ created
  if keys.isEmpty then return () else Catalog.linkItems w.relation key keys

/-- Creates and links the targets of relations to many rows. -/
def writeToMany (k : Catalog) (key : Value) : List RelatedWrite → Dialogue Unit
  | [] => return ()
  | w :: rest => do
    match w.relation.type with
    | .oneToMany => writeOneToMany k w key
    | .manyToMany => writeManyToMany k w key
    | .manyToOne | .oneToOne => pure ()
    writeToMany k key rest

end Payload

namespace Context

/-! ## Items -/

/-- Refuses values that the grant's condition does not hold of. Conditions on related rows cannot
hold of an item that does not exist yet. -/
def checkCreation (x : Context) (grant : Grant) (values : Record) : Outcome Unit := do
  if grant.unrestricted then return ()
  if let some condition := grant.condition then
    let condition ← x.resolver.resolveFilter condition
    if !(← condition.admits values) then refuse .accessDenied
  if grant.relConditions.isEmpty then return () else refuse .accessDenied

/-- What is written for a new item whose values may be created. -/
def creation (x : Context) (collection : String) (data : Value) : Outcome Payload := do
  let grant ← x.grant collection .create
  let c ← x.catalog.find collection
  let payload ← Payload.prepare x.catalog c grant x.resolver data
  x.checkCreation grant payload.values
  return payload

/-- Adds the row of an item with its values, then the rows behind it, and gives its key. -/
def addRow (x : Context) (collection : String) (p : Payload) (values : Record) :
    Dialogue Value := do
  let key ← x.catalog.insertItem collection values
  Payload.writeToMany x.catalog key p.related
  return key

/-- Creates an item and gives its key. -/
def createItem (x : Context) (collection : String) (data : Value) : Dialogue Value := do
  let payload ← x.creation collection data
  Dialogue.transaction do
    let values ← Payload.writeToOne x.catalog payload.related payload.values
    x.addRow collection payload values

/-- The values that a changed row gets. A change of related items alone writes the key of the row,
so that the row must still be one that may be changed. -/
def updatedValues (c : Collection) (key : Value) (values : Record) : Record :=
  if values.isEmpty then [(c.primaryKey, key)] else values

/-- A change of one row. -/
structure RowChange where
  /-- The collection of the row. -/
  collection : Collection
  /-- The rows that may be reached. -/
  security : RowSecurity
  /-- What is written. -/
  payload : Payload

/-- What is written for the item with a key, and where. -/
def change (x : Context) (collection key : String) (data : Record) : Outcome RowChange := do
  let grant ← x.grant collection .update
  let c ← x.catalog.find collection
  if data.isEmpty then refuse .emptyUpdate
  let security ← grant.rowSecurity c x.resolver (.text key)
  let payload ← Payload.prepare x.catalog c grant x.resolver (.record data)
  return ⟨c, security, payload⟩

/-- Gives the row of an item its values, then adds the rows behind it, and gives its key. -/
def changeRow (x : Context) (collection key : String) (r : RowChange) (values : Record) :
    Dialogue Value := do
  match ← x.catalog.updateItems collection r.security.filter values r.security.relConditions with
  | [] => refuse (.notFound .item key)
  | written :: _ => do
    Payload.writeToMany x.catalog written r.payload.related
    return written

/-- Changes the item with a key and gives the key of the row. -/
def updateItem (x : Context) (collection key : String) (data : Record) : Dialogue Value := do
  let r ← x.change collection key data
  Dialogue.transaction do
    let values ← Payload.writeToOne x.catalog r.payload.related r.payload.values
    x.changeRow collection key r (updatedValues r.collection (.text key) values)

/-- Deletes the item with a key. -/
def deleteItem (x : Context) (collection key : String) : Dialogue Unit := do
  let grant ← x.grant collection .delete
  let c ← x.catalog.find collection
  let security ← grant.rowSecurity c x.resolver (.text key)
  let deleted ←
    (x.catalog.deleteItems collection security.filter security.relConditions).transaction
  if deleted.isEmpty then refuse (.notFound .item key) else return ()

end Context

end Warden
