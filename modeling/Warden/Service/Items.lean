import Warden.Query.Parameters
import Warden.Service.Basic

/-! # Requests for items

How requests that read, create, change and delete items are answered.
-/

namespace Warden

namespace Service

/-- The response with a page of rows. -/
def pageResponse (p : Page) : Response :=
  ⟨.ok, .record [("data", .list (p.rows.map .record)), ("totalCount", .int p.total)]⟩

/-- The response with the key of an item. -/
def keyResponse (status : Status) (key : Value) : Response :=
  .data status (.record [("id", key)])

/-- Answers a request for items, written as parameters. -/
def queryItems (s : Service) (x : Context) (collection : String) (parameters : Record) :
    Dialogue Response :=
  Dialogue.answered do
    let r ← Request.ofParameters collection parameters s.settings.defaultLimit
    return pageResponse (← x.readItems r)

/-- Answers a request to create an item. -/
def createItem (x : Context) (collection : String) (data : Record) : Dialogue Response :=
  Dialogue.answered do
    return keyResponse .created (← x.createItem collection (.record data))

/-- Answers a request for one item. -/
def readItem (x : Context) (collection key : String) (parameters : Record) : Dialogue Response :=
  Dialogue.answered do
    let fields ← Parameters.readFields parameters
    return .data .ok (.record (← x.readItem collection key fields))

/-- Answers a request to change an item. -/
def updateItem (x : Context) (collection key : String) (data : Record) : Dialogue Response :=
  Dialogue.answered do
    return keyResponse .ok (← x.updateItem collection key data)

/-- Answers a request to delete an item. -/
def deleteItem (x : Context) (collection key : String) : Dialogue Response :=
  Dialogue.answered do
    x.deleteItem collection key
    return .empty

end Service

end Warden
