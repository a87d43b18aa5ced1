import Warden.Access.Allowlist
import Warden.Filter.Basic

/-! # Grants

A **`Grant`** is what a caller may do with one collection: which fields, under which condition on
the row and on related rows, and which values are set whatever the caller sends. Conditions and
values may hold variables.
-/

namespace Warden

/-- What a caller may do with one collection. -/
structure Grant where
  /-- The fields that may be seen or written. -/
  allowlist : Allowlist
  /-- The condition on the row, if there is one. -/
  condition : Option Filter
  /-- The conditions on related rows, by relation. -/
  relConditions : Named Filter
  /-- The values that are set on writing. -/
  defaultValues : Record
  /-- No condition applies. -/
  unrestricted : Bool
  /-- Nothing may be done. -/
  denied : Bool

/-- The grant of an administrator. -/
def Grant.admin : Grant where
  allowlist := .all
  condition := none
  relConditions := []
  defaultValues := []
  unrestricted := true
  denied := false

/-- The grant where no rule applies: nothing is visible and nothing matches. -/
def Grant.deny : Grant where
  allowlist := .none
  condition := some .none
  relConditions := []
  defaultValues := []
  unrestricted := false
  denied := true

end Warden
