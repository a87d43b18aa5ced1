import Warden.Access.Grant
import Warden.Access.Variable
import Warden.Query.Merge
import Warden.Query.Plan

/-! # Rows that may be written

Changing or deleting an item reaches only the row with its key, and that row only where the grant's
conditions hold. They are joined to the key just as they are joined to a caller's filter on reading.
-/

namespace Warden

/-- The rows that a write may reach. -/
structure RowSecurity where
  /-- The condition on the row. -/
  filter : Filter
  /-- The conditions on related rows, by relation. -/
  relConditions : Named Filter

/-- The condition that a row of a collection has a key. -/
def Collection.keyCondition (c : Collection) (key : Value) : Filter :=
  .leaf ⟨c.primaryKey, .eq, key, none⟩

/-- The row with a key under a grant. -/
def Grant.rowSecurity (grant : Grant) (c : Collection) (r : Resolver) (key : Value) :
    Outcome RowSecurity := do
  let filter ←
    r.resolveFilter (mergeFilters (some (c.keyCondition key)) grant.condition grant.unrestricted)
  Request.checkRelations c grant.relConditions
  let relConditions ←
    Request.resolveAll r (mergeRelConditions [] grant.relConditions grant.unrestricted)
  return ⟨filter, relConditions⟩

end Warden
