import Warden.Database.Items
import Warden.Item.Context
import Warden.Item.Security
import Warden.Query.Projection

/-! # Reading items

* **`Context.readItems`** answers a request with the rows of its plan and their total number.
* **`Context.readItem`** answers with one item. The condition on its key is joined to the plan's
  filter after the plan is made, so it holds even where the key is hidden from the caller.
-/

namespace Warden

/-- Rows and how many there are on all pages together. -/
structure Page where
  /-- The rows. -/
  rows : List Record
  /-- The number. -/
  total : Int

namespace Context

/-- What the caller may see of the rows of a plan. -/
def visibleRows (x : Context) (p : Plan) (rows : List Row) : Outcome (List Record) :=
  if p.isAggregate then pickColumns p.selection.columns rows
  else x.catalog.projectRows p.collection p.allowlist rows

/-- The items of a request. -/
def readItems (x : Context) (r : Request) : Dialogue Page := do
  let grant ← x.grant r.collection .read
  let p ← r.plan x.reader grant x.resolver
  let (rows, total) ← (p.read x.catalog).transaction
  return ⟨← x.visibleRows p rows, total⟩

/-- The plan for the item with a key. -/
def itemPlan (x : Context) (grant : Grant) (c : Collection) (key : String)
    (fields : Option (List String)) : Outcome Plan := do
  let r := { Request.all c.name 1 with fields }
  let p ← r.plan x.reader grant x.resolver
  return { p with filter := Filter.conjoin [c.keyCondition (.text key), p.filter] }

/-- The item with a key. -/
def readItem (x : Context) (collection key : String) (fields : Option (List String)) :
    Dialogue Record := do
  let grant ← x.grant collection .read
  let c ← x.catalog.find collection
  let p ← x.itemPlan grant c key fields
  let (rows, _) ← (p.read x.catalog).transaction
  match ← x.visibleRows p (rows.take 1) with
  | row :: _ => return row
  | [] => refuse (.notFound .item key)

end Context

end Warden
