import Warden.Item.Reading
import Warden.Item.Writing
import Warden.Permission.Management
import Warden.Schema.Definition
import Warden.Service.Response

/-! # The service

A **`Service`** is what lasts from one request to the next: the settings, the collections, the
current snapshot of the permissions, and whether the pool of connections is open.

* **`Service.startup`** opens the pool and loads collections and permissions.
* **`Service.reload`** loads the permissions anew.
-/

namespace Warden

/-- What the service is set up with. -/
structure Settings where
  /-- How many relations a path may pass. -/
  maxDepth : Int
  /-- How many rows are returned unless a request says otherwise. -/
  defaultLimit : Int
  /-- The role of callers without a token. -/
  publicRole : String
  /-- The role that makes a caller an administrator. -/
  adminRole : String
  /-- The claim that names the tenant. -/
  tenantClaim : String
  /-- The origins that may read responses. -/
  origins : List String

/-- What lasts from one request to the next. -/
structure Service where
  /-- The settings. -/
  settings : Settings
  /-- The collections. -/
  catalog : Catalog
  /-- The permissions. -/
  snapshot : Snapshot
  /-- The pool of connections is open. -/
  isOpen : Bool

namespace Service

/-- The service before it is started. -/
def initial (settings : Settings) (catalog : Catalog) : Service where
  settings := settings
  catalog := catalog
  snapshot := Snapshot.empty
  isOpen := false

/-- How filters are read. -/
def reader (s : Service) : FilterReader :=
  ⟨s.catalog, s.settings.maxDepth⟩

/-- What a request of a caller is answered from. -/
def context (s : Service) (caller : Caller) (now : DateTime) : Context :=
  ⟨s.reader, s.snapshot, caller, now⟩

/-- The collections in the store. -/
def loadCatalog : Dialogue Catalog := do
  let definitions ← fetchDefinitions.transaction
  Catalog.ofDefinitions definitions

/-- Loads the permissions anew, from the store that a service has. -/
def reload (s : Service) : Dialogue Service := do
  return { s with snapshot := ← s.snapshot.reloadFrom true }

/-- The service after a dialogue that may fail, with the failure if it did. -/
def after (s : Service) (d : Dialogue Service) : Dialogue (Service × Outcome Unit) := do
  match ← d.attempt with
  | .ok s => return (s, .ok ())
  | .error e => return (s, .error e)

/-- Starts the service: opens the pool, then loads the collections, then the permissions. What is
done before a failure stays. -/
def startup (s : Service) : Dialogue (Service × Outcome Unit) := do
  Dialogue.tell .openPool
  let s := { s with isOpen := true }
  let loaded : Dialogue Service := do return { s with catalog := ← loadCatalog }
  match ← s.after loaded with
  | (s, .ok ()) => s.after s.reload
  | failed => return failed

/-- Stops the service. -/
def shutdown (s : Service) : Dialogue Service := do
  Dialogue.tell .closePool
  return { s with isOpen := false }

/-! ## Health -/

/-- The response to whether the service is alive. -/
def health : Response :=
  ⟨.ok, .record [("status", .text "ok")]⟩

/-- The response to whether the service is ready. -/
def ready (s : Service) : Response :=
  let (status, word) :=
    if s.isOpen then (Status.ok, "ready") else (Status.unavailable, "unavailable")
  ⟨status, .record [("status", .text word), ("collections", .int s.catalog.names.length)]⟩

end Service

end Warden
