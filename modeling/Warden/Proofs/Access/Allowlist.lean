import Warden.Access.Allowlist
import Warden.Text.Basic

/-! # Allowed paths

How the answer for a path follows from the answers for its segments. An allowlist without patterns
allows every path (`allowsPath_of_isAll`). -/

namespace Warden

/-- A text has at least one piece. -/
theorem Text.split_ne_nil (sep : Char) (s : String) : Text.split sep s ≠ [] := by
  simpa [Text.split] using Text.splitChars_ne_nil sep s.toList

namespace Allowlist

variable {a : Allowlist}

@[simp] theorem allowsSegments_singleton (field : String) :
    a.allowsSegments [field] = a.allowsField field := rfl

/-- A path behind a relation is allowed iff the relation is and its part of the allowlist allows the
path. -/
theorem allowsSegments_cons (relation : String) {path : List String} (h : path ≠ []) :
    a.allowsSegments (relation :: path) =
      (a.allowsRelation relation && (a.forRelation relation).allowsSegments path) := by
  cases path with
  | nil => exact absurd rfl h
  | cons next rest => rfl

/-- There is one allowlist without patterns. -/
theorem eq_all_of_isAll (h : a.isAll = true) : a = all := by
  obtain ⟨patterns⟩ := a
  cases patterns with
  | none => rfl
  | some ps => cases h

@[simp] theorem allowsField_all (name : String) : all.allowsField name = true := rfl

@[simp] theorem allowsRelation_all (name : String) : all.allowsRelation name = true := rfl

@[simp] theorem forRelation_all (name : String) : all.forRelation name = all := rfl

/-- An allowlist without patterns allows every path. -/
theorem allowsSegments_all {path : List String} (h : path ≠ []) :
    all.allowsSegments path = true := by
  induction path with
  | nil => exact absurd rfl h
  | cons segment rest ih =>
      by_cases hr : rest = []
      · rw [hr, allowsSegments_singleton, allowsField_all]
      · rw [allowsSegments_cons segment hr, allowsRelation_all, forRelation_all, ih hr]
        rfl

/-- An allowlist without patterns allows every dotted path. -/
theorem allowsPath_of_isAll (h : a.isAll = true) (path : String) :
    a.allowsPath path = true := by
  rw [eq_all_of_isAll h]
  exact allowsSegments_all (Text.split_ne_nil '.' path)

end Allowlist

end Warden
