import Warden.Database.Dialogue

/-! # Items in the database

Reading and writing the rows of collections. Statements are made before the first of them is
executed, so a plan that cannot be rendered asks nothing of the database.
-/

namespace Warden

/-- The rows of a plan and how many there are on all pages together. -/
def Plan.read (p : Plan) (k : Catalog) : Dialogue (List Row × Int) := do
  let select ← p.select k
  let count ← p.count k
  let rows ← Dialogue.execute (.select select)
  let counted ← Dialogue.execute (.count count)
  return (rows, ← Row.total counted)

namespace Catalog

/-- Adds an item and gives its key, absent if none comes back. -/
def insertItem (k : Catalog) (collection : String) (values : Record) : Dialogue Value := do
  let change ← Sql.insertRow k collection values
  let rows ← Dialogue.execute (.change change)
  match Row.first? rows with
  | some r => r.cell 0
  | none => return .null

/-- Changes the items of a filter and gives their keys. -/
def updateItems (k : Catalog) (collection : String) (f : Filter) (values : Record)
    (relConditions : Named Filter) : Dialogue (List Value) := do
  let change ← Sql.updateRows k collection f values relConditions
  let rows ← Dialogue.execute (.change change)
  Row.keys rows

/-- Deletes the items of a filter and gives their keys. -/
def deleteItems (k : Catalog) (collection : String) (f : Filter) (relConditions : Named Filter) :
    Dialogue (List Value) := do
  let change ← Sql.deleteRows k collection f relConditions
  let rows ← Dialogue.execute (.change change)
  Row.keys rows

/-- Links an item with others through the joining table of a relation. -/
def linkItems (r : Relation) (source : Value) (targets : List Value) : Dialogue Unit := do
  let change ← Sql.linkRows r source targets
  let _ ← Dialogue.execute (.change change)
  return ()

end Catalog

end Warden
