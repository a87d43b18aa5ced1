/-! # Defects

A **defect** is the way a computation breaks off when it meets data it makes no provision for: an
answer that no caller asked for, as opposed to a refusal with a reason. Reading a value of an
unexpected kind or a missing member is a defect; so is a failing database.
-/

namespace Warden

/-- Why a computation broke off. -/
inductive Defect where
  /-- An operation met a value of a kind it is not defined for. -/
  | wrongKind
  /-- A value of the right kind had no meaning. -/
  | invalidValue
  /-- A number was too large for its use. -/
  | overflow
  /-- An arithmetic operation has no result. -/
  | undefinedResult
  /-- A pattern could not be read. -/
  | badPattern
  /-- Calls were nested too deep. -/
  | tooDeep
  /-- A list was too short. -/
  | missingIndex
  /-- A mapping had no such key. -/
  | missingKey
  /-- A value had no such member. -/
  | missingMember
  /-- There is no store to read from. -/
  | noStore
  /-- The database failed. -/
  | storeFailure
deriving DecidableEq

end Warden
