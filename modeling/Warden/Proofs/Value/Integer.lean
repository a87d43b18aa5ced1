import Warden.Proofs.Value.Order

/-! # Integers among the values

Integers stand for themselves when values are compared (**`Value.comparesAs_int`**), and so
equality, order, membership and ranges of values are those of integers where integers meet. -/

namespace Warden

namespace Value

theorem comparesAs_int (m n : Int) : (int m).ComparesAs (int n) m n :=
  comparesAs_of_isWhole (isWhole_int m) (isWhole_int n)

theorem matchesValue_int (m n : Int) : (int m).matchesValue (int n) = .ok (decide (m = n)) :=
  matchesValue_of_comparesAs rfl rfl (comparesAs_int m n)

theorem matchesOne_int (m : Int) (ns : List Int) :
    (int m).matchesOne (ns.map int) = .ok (decide (m ∈ ns)) := by
  induction ns with
  | nil => rfl
  | cons n ns ih =>
      rw [List.map_cons, matchesOne, matchesValue_int, ih]
      by_cases h : m = n
      · simp only [h, List.mem_cons_self, decide_true]
        rfl
      · simp only [h, List.mem_cons, false_or, decide_false]
        rfl

/-- The four comparisons by order are those of integers. -/
theorem isOrderedAs_int_iff (m n : Int) :
    isOrderedAs [.gt] (int m) (int n) = .ok (decide (n < m)) ∧
    isOrderedAs [.gt, .eq] (int m) (int n) = .ok (decide (n ≤ m)) ∧
    isOrderedAs [.lt] (int m) (int n) = .ok (decide (m < n)) ∧
    isOrderedAs [.lt, .eq] (int m) (int n) = .ok (decide (m ≤ n)) := by
  have hordered (orders : List Ordering) :
      isOrderedAs orders (int m) (int n) = .ok (orders.contains (Ord.compare m n)) :=
    isOrderedAs_of_comparesAs orders rfl (comparesAs_int m n)
  obtain ⟨hgt, hge, hlt, hle⟩ := contains_compare m n
  rw [hordered, hordered, hordered, hordered, hgt, hge, hlt, hle]
  exact ⟨rfl, rfl, rfl, rfl⟩

/-- A pair of integers is a range of them, ends included. -/
theorem isBetween_int {v : Value} {low high : Int} (hv : v.items? = some [int low, int high])
    (m : Int) : (int m).isBetween v = .ok (decide (low ≤ m ∧ m ≤ high)) := by
  rw [isBetween_of_items? hv]
  exact isWithin_of_comparesAs (comparesAs_int low m) (comparesAs_int m high)

end Value

end Warden
