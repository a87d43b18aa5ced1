import Mathlib.Data.List.Basic
import Warden.Sql.Fragment

/-! # Fragments piece by piece

The text of a fragment and its values, piece by piece, and what joining several fragments with a
text between them gives. -/

namespace Warden.Sql.Fragment

variable {f g : Fragment} {fs : List Fragment} {separator s : String} {v : Value}

@[simp] theorem sql_nil : sql [] = "" := rfl

@[simp] theorem sql_ofText : sql (ofText s) = s := by
  simp [sql, ofText, pieceText]

@[simp] theorem sql_ofValue : sql (ofValue v) = placeholder := by
  simp [sql, ofValue, pieceText]

@[simp] theorem sql_ofJson : sql (ofJson v) = placeholder := by
  simp [sql, ofJson, pieceText]

@[simp] theorem parameters_ofText : parameters (ofText s) = [] := rfl

@[simp] theorem parameters_ofValue : parameters (ofValue v) = [.plain v] := rfl

@[simp] theorem parameters_ofJson : parameters (ofJson v) = [.json v] := rfl

/-! ## Joined fragments -/

@[simp] theorem joined_nil : joined separator [] = [] := rfl

@[simp] theorem joined_singleton : joined separator [f] = f :=
  List.append_nil f

theorem joined_cons_cons :
    joined separator (f :: g :: fs) = f ++ ofText separator ++ joined separator (g :: fs) := by
  simp [joined, List.append_assoc]

/-- A property that the separator has, and each of the fragments, the joined fragments have, if it
is passed on to what is put together. -/
theorem joined_induction {motive : Fragment → Prop} (hnil : motive [])
    (hseparator : motive (ofText separator))
    (happend : ∀ f g, motive f → motive g → motive (f ++ g)) (hfs : ∀ f ∈ fs, motive f) :
    motive (joined separator fs) := by
  induction fs with
  | nil => exact hnil
  | cons f fs ih =>
      obtain ⟨hf, hrest⟩ := List.forall_mem_cons.1 hfs
      cases fs with
      | nil =>
          rw [joined_singleton]
          exact hf
      | cons g fs =>
          rw [joined_cons_cons]
          exact happend _ _ (happend _ _ hf hseparator) (ih hrest)

/-- The text of joined fragments is that of each with the separator between them. -/
theorem sql_joined : (joined separator fs).sql = String.intercalate separator (fs.map sql) := by
  induction fs with
  | nil => rfl
  | cons f fs ih =>
      cases fs with
      | nil => rw [joined_singleton, List.map_singleton, String.intercalate_singleton]
      | cons g fs =>
          rw [joined_cons_cons, sql_append, sql_append, sql_ofText, ih]
          exact String.intercalate_cons_cons.symm

/-- The values of joined fragments are those of one after another. -/
theorem parameters_joined : parameters (joined separator fs) = fs.flatMap parameters := by
  induction fs with
  | nil => rfl
  | cons f fs ih =>
      cases fs with
      | nil => simp
      | cons g fs =>
          rw [joined_cons_cons, parameters_append, parameters_append, ih, parameters_ofText]
          simp

end Warden.Sql.Fragment
