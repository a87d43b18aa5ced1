import Warden.Filter.Basic

/-! # Merging filters

What a caller asks for and what a rule demands are joined by conjunction, so nothing the caller
sends can widen the set of rows beyond what the rule allows. Administrators have no rule to join.
-/

namespace Warden

/-- The caller's filter and the rule's condition together; for an unrestricted caller the rule does
not count. -/
def mergeFilters (caller security : Option Filter) (unrestricted : Bool) : Filter :=
  match caller, security, unrestricted with
  | some f, _, true => f
  | none, _, true => .all
  | some f, none, false => f
  | none, none, false => .all
  | none, some g, false => g
  | some f, some g, false => Filter.conjoin [f, g]

/-- The caller's and the rule's relation conditions together, relation by relation. A relation that
one side does not name keeps the other side's condition. -/
def mergeRelConditions (caller security : Named Filter) (unrestricted : Bool) : Named Filter :=
  if unrestricted then caller
  else
    security.foldl
      (fun merged (name, f) => merged.insert name (mergeFilters (merged.find? name) (some f) false))
      caller

end Warden
