import Warden.Proofs.Named
import Warden.Proofs.Outcome
import Warden.Sql.Write

/-! # Values that can be written

A statement that writes a row can be made iff each value can be written to its column. An absent
value and a truth value can be written to every column (**`Writable`**), so a statement can still be
made when some of its values are replaced by one of them. -/

namespace Warden.Sql

variable {c : Collection} {z : Value}

/-- The value can be written to every column. -/
def Writable (z : Value) : Prop :=
  ∀ (c : Collection) (name : String), ∃ w, written c name z = .ok w

theorem writable_null : Writable .null := fun _ _ => ⟨_, rfl⟩

theorem writable_bool (b : Bool) : Writable (.bool b) := by
  intro c name
  unfold written
  split
  · exact ⟨_, rfl⟩
  · exact ⟨_, rfl⟩
  · -- a geometry is written as JSON first, which a truth value always has
    cases b <;> exact ⟨_, rfl⟩
  · exact ⟨_, rfl⟩

/-- There is another value that can be written to every column. -/
theorem exists_writable_ne (w : Value) : ∃ z, z ≠ w ∧ Writable z := by
  by_cases h : w = .null
  · exact ⟨.bool true, by rw [h]; exact Value.noConfusion, writable_bool true⟩
  · exact ⟨.null, Ne.symm h, writable_null⟩

/-- Each value of the second record is that of the first one or a given one. -/
abbrev Replaced (z : Value) : Record → Record → Prop :=
  Named.Alike fun v w => w = v ∨ w = z

/-- A record can still be written after values are replaced by one that can always be. -/
theorem exists_writtenAll_of_replaced (hz : Writable z) {r s : Record} (h : Replaced z r s)
    {out : List (String × Written)} (hr : writtenAll c r = .ok out) :
    ∃ out, writtenAll c s = .ok out := by
  induction h generalizing out with
  | nil => exact ⟨[], rfl⟩
  | @cons entry other r s he _ ih =>
      obtain ⟨name, v⟩ := entry
      obtain ⟨_, v'⟩ := other
      obtain ⟨rfl, hv⟩ := he
      simp only [writtenAll, Outcome.bind_eq_ok, Outcome.pure_eq_ok] at hr ⊢
      obtain ⟨w, hw, rest, hrest, -⟩ := hr
      obtain ⟨rest', hrest'⟩ := ih hrest
      rcases (show v' = v ∨ v' = z from hv) with rfl | rfl
      · exact ⟨_, w, hw, rest', hrest', rfl⟩
      · obtain ⟨w', hw'⟩ := hz c name
        exact ⟨_, w', hw', rest', hrest', rfl⟩

variable {k : Catalog} {collection : String} {values others : Record}

theorem exists_insertRow_of_replaced (hz : Writable z) (h : Replaced z values others)
    (hs : ∃ s, insertRow k collection values = .ok s) :
    ∃ s, insertRow k collection others = .ok s := by
  obtain ⟨s, hs⟩ := hs
  simp only [insertRow, Outcome.bind_eq_ok, Outcome.pure_eq_ok] at hs ⊢
  obtain ⟨c, hc, out, hout, -⟩ := hs
  obtain ⟨out', hout'⟩ := exists_writtenAll_of_replaced hz h hout
  exact ⟨_, c, hc, out', hout', rfl⟩

theorem exists_updateRows_of_replaced {f : Filter} {relConditions : Named Filter}
    (hz : Writable z) (h : Replaced z values others)
    (hs : ∃ s, updateRows k collection f values relConditions = .ok s) :
    ∃ s, updateRows k collection f others relConditions = .ok s := by
  obtain ⟨s, hs⟩ := hs
  simp only [updateRows, Outcome.bind_eq_ok, Outcome.pure_eq_ok] at hs ⊢
  obtain ⟨c, hc, out, hout, conditions, hconditions, -⟩ := hs
  obtain ⟨out', hout'⟩ := exists_writtenAll_of_replaced hz h hout
  exact ⟨_, c, hc, out', hout', conditions, hconditions, rfl⟩

end Warden.Sql
