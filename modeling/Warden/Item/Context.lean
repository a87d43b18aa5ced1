import Warden.Permission.Snapshot

/-! # Contexts of requests

A **`Context`** is what a request is answered from: the collections, the permissions as they stand
in one snapshot, who asks, and the time. It does not change while the request is answered.
-/

namespace Warden

/-- What a request is answered from. -/
structure Context where
  /-- The collections and how filters are read against them. -/
  reader : FilterReader
  /-- The permissions. -/
  snapshot : Snapshot
  /-- Who asks. -/
  caller : Caller
  /-- The time of the request. -/
  now : DateTime

namespace Context

/-- The collections. -/
def catalog (x : Context) : Catalog :=
  x.reader.catalog

/-- What variables stand for. -/
def resolver (x : Context) : Resolver :=
  ⟨x.caller, x.now⟩

/-- What the caller may do with a collection; nothing at all is a refusal. -/
def grant (x : Context) (collection : String) (action : Action) : Outcome Grant := do
  let grant ← x.snapshot.grant x.reader x.caller collection action
  if grant.denied then refuse .accessDenied else return grant

end Context

end Warden
