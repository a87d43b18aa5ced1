import Mathlib.Order.Compare
import Warden.Value.Equality

/-! # Equality of atoms

Values that hold no others are compared as numbers or by what they are. The order of two numbers is
turned around when they change places (**`Scaled.compare_swap`**), so equality of atoms does not
depend on which of them comes first (**`Value.same_comm`**), and neither do the cases in which it
has no result (**`Value.equals_comm`**). -/

namespace Warden

/-! ## Numbers -/

namespace Scaled

/-- Absolute values that change places change their order. -/
theorem compareMagnitude_swap (x y : Scaled) :
    (compareMagnitude x y).swap = compareMagnitude y x := by
  unfold compareMagnitude
  by_cases hx : x.coefficient = 0 <;> by_cases hy : y.coefficient = 0
  · simp [hx, hy]
  · simp [hx, hy]
  · simp [hx, hy]
  · rcases Int.lt_trichotomy x.order y.order with h | h | h
    · have hflip : ¬ y.order < x.order := by omega
      simp [hx, hy, h, hflip]
    · simp only [hx, hy, h, Int.lt_irrefl, if_false]
      rw [Nat.compare_swap, Int.min_comm]
    · have hflip : ¬ x.order < y.order := by omega
      simp [hx, hy, h, hflip]

/-- Numbers that change places change their order. -/
theorem compare_swap (x y : Scaled) : (x.compare y).swap = y.compare x := by
  unfold compare
  by_cases h : x.coefficient = 0 ∧ y.coefficient = 0
  · rw [if_pos h, if_pos h.symm]
    rfl
  · rw [if_neg h, if_neg (mt And.symm h)]
    cases x.negative <;> cases y.negative <;> simp [compareMagnitude_swap]

theorem compare_self (x : Scaled) : x.compare x = .eq := by
  have hswap := compare_swap x x
  cases h : x.compare x with
  | eq => rfl
  | lt | gt =>
      rw [h] at hswap
      cases hswap

end Scaled

theorem Extended.compare?_swap (x y : Extended) : (x.compare? y).map .swap = y.compare? x := by
  cases x with
  | nan => cases y <;> rfl
  | number x =>
      cases y with
      | nan => rfl
      | number y => exact congrArg some (Scaled.compare_swap x y)
      | infinite negative => cases negative <;> rfl
  | infinite negative =>
      cases y with
      | nan => rfl
      | number y => cases negative <;> rfl
      | infinite other => cases negative <;> cases other <;> rfl

/-- Two numbers are equal in either order or in neither. -/
theorem Extended.equal_comm (x y : Extended) :
    (x.compare? y == some .eq) = (y.compare? x == some .eq) := by
  rw [← compare?_swap x y]
  cases x.compare? y with
  | none => rfl
  | some o => cases o <;> rfl

/-! ## Times -/

theorem DateTime.same_comm (s t : DateTime) : s.same t = t.same s := by
  unfold same
  cases s.instant? with
  | none =>
      cases t.instant? with
      | none => exact Bool.beq_comm
      | some n => rfl
  | some m =>
      cases t.instant? with
      | none => rfl
      | some n => exact Bool.beq_comm

/-! ## Values -/

namespace Value

/-- The value has no items and no entries: it is nothing or a scalar. -/
def isAtom : Value → Bool
  | .list _ | .tuple _ | .set _ | .record _ => false
  | _ => true

variable {a b : Value}

/-- An atom is equal to another value if they are equal without regard to items. -/
theorem same_of_isAtom (ha : a.isAtom = true) (b : Value) : a.same b = sameScalar a b := by
  cases a with
  | list | tuple | set | record => cases ha
  | _ => simp only [same]

theorem sameScalar_comm (a b : Value) : sameScalar a b = sameScalar b a := by
  unfold sameScalar
  cases a.number? with
  | some x =>
      cases b.number? with
      | some y => exact Extended.equal_comm x y
      | none => rfl
  | none =>
      cases b.number? with
      | some y => rfl
      | none =>
          -- only values of one kind are compared
          cases a with
          | text s =>
              cases b with
              | text t => exact Bool.beq_comm
              | _ => rfl
          | bytes s =>
              cases b with
              | bytes t => exact Bool.beq_comm
              | _ => rfl
          | datetime s =>
              cases b with
              | datetime t => exact DateTime.same_comm s t
              | _ => rfl
          | date s =>
              cases b with
              | date t => exact Bool.beq_comm
              | _ => rfl
          | time s =>
              cases b with
              | time t => exact Bool.beq_comm
              | _ => rfl
          | uuid s =>
              cases b with
              | uuid t => exact Bool.beq_comm
              | _ => rfl
          | _ => cases b <;> rfl

/-- **Atoms are equal in either order or in neither.** -/
theorem same_comm (ha : a.isAtom = true) (hb : b.isAtom = true) : a.same b = b.same a := by
  rw [same_of_isAtom ha, same_of_isAtom hb, sameScalar_comm]

/-- Whether the equality of two atoms has a result does not depend on which comes first. -/
theorem equals_comm (ha : a.isAtom = true) (hb : b.isAtom = true) : a.equals b = b.equals a := by
  unfold equals
  rw [Bool.or_comm, same_comm ha hb]

theorem same_text (s t : String) : (text s).same (text t) = decide (s = t) := by
  simp [same, sameScalar, number?, beq_eq_decide]

/-- Nothing but the text itself is equal to a text. -/
theorem eq_text_of_same {v : Value} {s : String} (h : v.same (text s) = true) : v = text s := by
  cases v with
  | text t =>
      rw [same_text, decide_eq_true_iff] at h
      rw [h]
  | list | tuple | set | record => simp [same] at h
  | _ => simp [same, sameScalar, number?] at h

end Value

end Warden
