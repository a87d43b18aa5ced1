/-! # Truth values with an unknown

Conditions that cannot be decided are **unknown**. The connectives are those of strong Kleene
logic: a conjunction fails as soon as one part fails, a disjunction holds as soon as one part
holds, and otherwise an unknown part leaves the whole unknown. Negation exchanges the two
(`not_and`, `not_or`).
-/

namespace Warden

/-- Whether something holds, as far as it can be decided. -/
inductive Truth where
  | holds
  | fails
  | unknown
deriving DecidableEq

namespace Truth

/-- A decided truth value. -/
def ofBool (b : Bool) : Truth :=
  if b then .holds else .fails

/-- Both hold. -/
def and : Truth → Truth → Truth
  | .fails, _ => .fails
  | _, .fails => .fails
  | .holds, .holds => .holds
  | _, _ => .unknown

/-- At least one holds. -/
def or : Truth → Truth → Truth
  | .holds, _ => .holds
  | _, .holds => .holds
  | .fails, .fails => .fails
  | _, _ => .unknown

/-- It does not hold. -/
def not : Truth → Truth
  | .holds => .fails
  | .fails => .holds
  | .unknown => .unknown

theorem not_not (t : Truth) : t.not.not = t := by
  cases t <;> rfl

theorem not_and (s t : Truth) : (s.and t).not = s.not.or t.not := by
  cases s <;> cases t <;> rfl

theorem not_or (s t : Truth) : (s.or t).not = s.not.and t.not := by
  cases s <;> cases t <;> rfl

/-- A conjunction holds only if both parts do. -/
theorem and_eq_holds {s t : Truth} : s.and t = .holds ↔ s = .holds ∧ t = .holds := by
  cases s <;> cases t <;> simp [and]

/-- A disjunction holds only if one part does. -/
theorem or_eq_holds {s t : Truth} : s.or t = .holds ↔ s = .holds ∨ t = .holds := by
  cases s <;> cases t <;> simp [or]

end Truth

end Warden
