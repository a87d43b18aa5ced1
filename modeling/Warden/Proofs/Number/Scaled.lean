import Mathlib.Data.Nat.Digits.Defs
import Mathlib.Order.Compare
import Warden.Proofs.Number.IntegerText

/-! # The order of whole numbers

Numbers are compared on a decimal scale, orders of magnitude first. On whole numbers this is the
usual order of integers (**`Scaled.compare_signed`**), whatever they were written as. -/

namespace Warden

/-! ## Order of magnitude -/

/-- A larger number has no fewer digits. -/
theorem decimalLength_le {m n : ℕ} (h : m ≤ n) : decimalLength m ≤ decimalLength n := by
  rw [decimalLength, decimalLength]
  split_ifs with hm hn hn
  · exact Nat.le_refl 0
  · exact Nat.zero_le _
  · omega
  · have hpos : 0 < (Nat.toDigits 10 n).length :=
      List.length_pos_iff.2 (by simp)
    rw [Nat.length_toDigits_le_iff (by decide) hpos]
    exact h.trans_lt ((Nat.length_toDigits_le_iff (by decide) hpos).1 (Nat.le_refl _))

namespace Scaled

open IntegerText

/-- Numbers without a fraction have the order of their coefficients. -/
theorem compareMagnitude_natural (s t : Bool) (m n : ℕ) :
    compareMagnitude ⟨s, m, 0⟩ ⟨t, n, 0⟩ = Ord.compare m n := by
  have hlength (k l : ℕ) (h : decimalLength k < decimalLength l) : k < l :=
    Nat.lt_of_not_le fun hle => Nat.not_le_of_lt h (decimalLength_le hle)
  simp only [compareMagnitude, order, aligned, Int.add_zero, Nat.cast_lt]
  split_ifs with hm hn hn hlt hgt
  · rw [hm, hn]
    rfl
  · exact (Nat.compare_eq_lt.2 (by omega)).symm
  · exact (Nat.compare_eq_gt.2 (by omega)).symm
  · exact (Nat.compare_eq_lt.2 (hlength m n hlt)).symm
  · exact (Nat.compare_eq_gt.2 (hlength n m hgt)).symm
  · simp

/-- **Whole numbers have the order of integers**, with one zero. -/
theorem compare_signed (s t : Bool) (m n : ℕ) :
    compare ⟨s, m, 0⟩ ⟨t, n, 0⟩ = Ord.compare (signed s m) (signed t n) := by
  have hnat (k l : ℕ) : Ord.compare k l = Ord.compare (k : Int) l := by
    simp only [Ord.compare, compareOfLessAndEq]
    split_ifs <;> first | rfl | omega
  have hneg (k l : ℕ) : Ord.compare l k = Ord.compare (-(k : Int)) (-l) := by
    simp only [Ord.compare, compareOfLessAndEq]
    split_ifs <;> first | rfl | omega
  rw [Scaled.compare]
  split_ifs with h
  · obtain ⟨rfl, rfl⟩ : m = 0 ∧ n = 0 := h
    cases s <;> cases t <;> rfl
  · -- the sign decides, and then the absolute values, which below zero have the reverse order
    have hpos : 0 < m ∨ 0 < n := by
      have hzero : ¬ (m = 0 ∧ n = 0) := h
      omega
    cases s <;> cases t
    · exact (compareMagnitude_natural _ _ m n).trans (hnat m n)
    · have hlt : -(n : Int) < m := by omega
      exact (compare_gt_iff_gt.2 hlt).symm
    · have hlt : -(m : Int) < n := by omega
      exact (compare_lt_iff_lt.2 hlt).symm
    · exact (compareMagnitude_natural _ _ n m).trans (hneg m n)

theorem signed_natAbs (n : Int) : signed (n < 0) n.natAbs = n := by
  unfold signed
  split_ifs with h
  · have hneg : n < 0 := of_decide_eq_true h
    omega
  · have hnonneg : ¬ n < 0 := of_decide_eq_false (Bool.eq_false_iff.2 h)
    omega

end Scaled

end Warden
