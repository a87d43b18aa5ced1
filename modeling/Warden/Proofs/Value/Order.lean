import Mathlib.Data.String.Basic
import Warden.Filter.Evaluation
import Warden.Proofs.Number.Scaled
import Warden.Proofs.Value.Equality

/-! # Values in an order

What a comparison of two values says is known once they stand for members of an order
(**`Value.ComparesAs`**). Whole numbers stand for integers (**`comparesAs_of_isWhole`**), whatever
their type, and texts for themselves, in the order of their characters (**`comparesAs_text`**). The
answer of an operator is then the one that the order has (**`Operator.test_of_comparesAs`**). A text
and a number are not equal and have no order, unless the text was brought to a number first. -/

namespace Warden

variable {α : Type*} [LinearOrder α] {x y : α}

/-- The answer of an operator to members of an order; a range takes two of them. -/
def Operator.answer? (op : Operator) (x : α) : (operands : List α) → Option Bool
  | [y] =>
    match op with
    | .eq => some (x = y)
    | .neq => some (x ≠ y)
    | .gt => some (y < x)
    | .gte => some (y ≤ x)
    | .lt => some (x < y)
    | .lte => some (x ≤ y)
    | _ => none
  | [low, high] =>
    match op with
    | .between => some (low ≤ x ∧ x ≤ high)
    | .nbetween => some (¬ (low ≤ x ∧ x ≤ high))
    | _ => none
  | _ => none

namespace Value

variable {a b : Value} {m n : Int}

/-- The two values have the order of two members of an order, and are equal if those are. -/
structure ComparesAs (a b : Value) (x y : α) : Prop where
  /-- The order. -/
  compare : a.compare b = .ok (some (Ord.compare x y))
  /-- Equality. -/
  equals : a.equals b = .ok (decide (x = y))

/-! ## Whole numbers -/

/-- The value is a whole number, and is this one. -/
def IsWhole (a : Value) (n : Int) : Prop :=
  ∃ negative m, a.number? = some (.number ⟨negative, m, 0⟩) ∧ IntegerText.signed negative m = n

theorem isWhole_int (n : Int) : (int n).IsWhole n :=
  ⟨_, _, rfl, Scaled.signed_natAbs n⟩

theorem IsWhole.isSome (h : a.IsWhole n) : a.number?.isSome = true := by
  obtain ⟨negative, k, hnumber, -⟩ := h
  rw [hnumber]
  rfl

/-- Numbers have the order of what they are worth. -/
theorem compare_of_number? {x y : Extended} (ha : a.number? = some x) (hb : b.number? = some y) :
    a.compare b = compareNumbers a b x y := by
  have hscalars : a.compare b = compareScalars a b := by
    cases a with
    | list | tuple | set => cases ha
    | _ => simp only [compare]
  rw [hscalars]
  unfold compareScalars
  rw [ha, hb]

/-- Two numbers that are neither infinite nor undefined are equal if they are worth the same. -/
theorem equals_of_number? {x y : Scaled} (ha : a.number? = some (.number x))
    (hb : b.number? = some (.number y)) :
    a.equals b = .ok (Extended.compare? (.number x) (.number y) == some .eq) := by
  have hquiet {v : Value} {z : Scaled} (hv : v.number? = some (.number z)) :
      v.signals = false := by
    cases v with
    | decimal d =>
        cases d with
        | nan => cases hv
        | _ => rfl
    | _ => rfl
  have hatom : a.isAtom = true := by
    cases a with
    | list | tuple | set | record => cases ha
    | _ => rfl
  rw [equals, hquiet ha, hquiet hb, same_of_isAtom hatom]
  unfold sameScalar
  rw [ha, hb]
  rfl

theorem comparesAs_of_isWhole (ha : a.IsWhole m) (hb : b.IsWhole n) : a.ComparesAs b m n := by
  obtain ⟨s, k, ha, rfl⟩ := ha
  obtain ⟨t, l, hb, rfl⟩ := hb
  have hcompare : Extended.compare? (.number ⟨s, k, 0⟩) (.number ⟨t, l, 0⟩) =
      some (Ord.compare (IntegerText.signed s k) (IntegerText.signed t l)) :=
    congrArg some (Scaled.compare_signed s t k l)
  have hequal : (Extended.compare? (.number ⟨s, k, 0⟩) (.number ⟨t, l, 0⟩) == some .eq) =
      decide (IntegerText.signed s k = IntegerText.signed t l) := by
    rw [hcompare, ← beq_eq_decide]
    simp
  constructor
  · rw [compare_of_number? ha hb, compareNumbers, hcompare]
  · rw [equals_of_number? ha hb, hequal]

/-! ## Texts -/

/-- Lists of characters have one of three orders, and are compared by their numbers. -/
theorem compareNats_cases (cs ds : List Char) :
    cs < ds ∧ compareNats (cs.map Char.toNat) (ds.map Char.toNat) = .lt ∨
    cs = ds ∧ compareNats (cs.map Char.toNat) (ds.map Char.toNat) = .eq ∨
    ds < cs ∧ compareNats (cs.map Char.toNat) (ds.map Char.toNat) = .gt := by
  induction cs generalizing ds with
  | nil =>
      cases ds with
      | nil => exact .inr (.inl ⟨rfl, rfl⟩)
      | cons d ds => exact .inl ⟨List.nil_lt_cons d ds, rfl⟩
  | cons c cs ih =>
      cases ds with
      | nil => exact .inr (.inr ⟨List.nil_lt_cons c cs, rfl⟩)
      | cons d ds =>
          simp only [List.map_cons, compareNats, List.cons_lt_cons_iff, List.cons.injEq]
          -- the first characters decide unless they are the same
          rcases Nat.lt_trichotomy c.toNat d.toNat with h | h | h
          · rw [Nat.compare_eq_lt.2 h]
            exact .inl ⟨.inl h, rfl⟩
          · obtain rfl : c = d := Char.toNat_inj.1 h
            rw [Nat.compare_eq_eq.2 rfl]
            simpa using ih ds
          · rw [Nat.compare_eq_gt.2 h]
            exact .inr (.inr ⟨.inl h, rfl⟩)

theorem comparesAs_text (s t : String) : (text s).ComparesAs (text t) s t := by
  constructor
  · have horder : compareNats (s.toList.map Char.toNat) (t.toList.map Char.toNat) =
        Ord.compare s t := by
      rcases compareNats_cases s.toList t.toList with ⟨h, heq⟩ | ⟨h, heq⟩ | ⟨h, heq⟩
      · rw [heq, compare_lt_iff_lt.2 (String.lt_iff_toList_lt.2 h)]
      · rw [heq, compare_eq_iff_eq.2 (String.toList_inj.1 h)]
      · rw [heq, compare_gt_iff_gt.2 (String.lt_iff_toList_lt.2 h)]
    simp only [compare, compareScalars, number?, horder]
  · simp [equals, signals, same, sameScalar, number?, beq_eq_decide]

/-! ## What is compared after it was brought to one kind -/

variable {actual expected : Value}

theorem matchesValue_of_present (hactual : actual.isNull = false) :
    actual.matchesValue expected = (do
      let (a, e) ← actual.align expected
      equals a e) := by
  cases actual with
  | null => cases hactual
  | _ => rfl

theorem matchesValue_of_comparesAs (hactual : actual.isNull = false)
    (halign : actual.align expected = .ok (a, b)) (h : a.ComparesAs b x y) :
    actual.matchesValue expected = .ok (decide (x = y)) := by
  rw [matchesValue_of_present hactual, halign]
  exact h.equals

theorem isOrderedAs_of_comparesAs (orders : List Ordering)
    (halign : actual.align expected = .ok (a, b)) (h : a.ComparesAs b x y) :
    isOrderedAs orders actual expected = .ok (orders.contains (Ord.compare x y)) := by
  simp only [isOrderedAs, halign, bind, Except.bind, h.compare]
  rfl

/-! ## Texts beside values of other kinds -/

/-- Texts and numbers have no order. -/
theorem compare_unlike (h : a.number?.isSome = true ∧ b.text?.isSome = true ∨
    a.text?.isSome = true ∧ b.number?.isSome = true) : a.compare b = .error .wrongKind := by
  rcases h with ⟨ha, hb⟩ | ⟨ha, hb⟩
  · cases b with
    | text t =>
        cases a with
        | bool | int | float | decimal => simp [compare, compareScalars, number?]
        | _ => cases ha
    | _ => cases hb
  · cases a with
    | text s =>
        cases b with
        | bool | int | float | decimal => simp [compare, compareScalars, number?]
        | _ => cases hb
    | _ => cases ha

/-- A date or a number differs from every text in the condition. -/
theorem differs_from_text (s : String) (hb : (∃ d, b = .date d) ∨ b.number?.isSome = true) :
    b.matchesValue (.text s) = .ok false := by
  have hpresent : b.isNull = false := by
    cases b with
    | null => simp [number?] at hb
    | _ => rfl
  have halign : b.align (.text s) = .ok (b, .text s) := by
    cases b with
    | date | bool | int | float | decimal => rfl
    | _ => simp [number?] at hb
  have hequals : b.equals (.text s) = .ok false := by
    cases b with
    | date | bool | int | float | decimal => simp [equals, signals, same, sameScalar, number?]
    | _ => simp [number?] at hb
  rw [matchesValue_of_present hpresent, halign]
  exact hequals

/-- A text is brought to a decimal beside a number. -/
theorem align_text_number (s : String) (hb : b.number?.isSome = true) : (text s).align b =
    match Decimal.ofText? s, Decimal.ofText? b.display with
    | some x, some y => .ok (.decimal x, .decimal y)
    | _, _ => .error .undefinedResult := by
  cases b with
  | bool | int | float | decimal => rfl
  | _ => cases hb

/-! ## Orders and ranges -/

/-- The four comparisons by order. -/
theorem contains_compare (x y : α) :
    [Ordering.gt].contains (Ord.compare x y) = decide (y < x) ∧
    [Ordering.gt, .eq].contains (Ord.compare x y) = decide (y ≤ x) ∧
    [Ordering.lt].contains (Ord.compare x y) = decide (x < y) ∧
    [Ordering.lt, .eq].contains (Ord.compare x y) = decide (x ≤ y) := by
  rcases lt_trichotomy x y with h | rfl | h
  · rw [compare_lt_iff_lt.2 h]
    simp [h, h.le, h.not_gt]
  · rw [compare_eq_iff_eq.2 rfl]
    simp
  · rw [compare_gt_iff_gt.2 h]
    simp [h, h.le, h.not_gt]

/-- The value stands between two others that it can be compared with. -/
def isWithin (low a high : Value) : Except Defect Bool := do
  match ← compare low a with
  | some .lt | some .eq =>
    match ← compare a high with
    | some .lt | some .eq => return true
    | _ => return false
  | _ => return false

/-- The elements of a list are its items. -/
theorem elements_of_items? {v : Value} {items : List Value} (hv : v.items? = some items) :
    v.elements = .ok items := by
  cases v with
  | list | tuple => exact congrArg Except.ok (Option.some.inj hv)
  | _ => cases hv

/-- In a range the value is compared as what it was brought to for the lower bound. -/
theorem isBetween_of_items? {v low high : Value} (hv : v.items? = some [low, high]) :
    actual.isBetween v = (do
      let (a, l) ← actual.align low
      let (_, h) ← actual.align high
      isWithin l a h) := by
  have hitems : itemAt v 0 = .ok low ∧ itemAt v 1 = .ok high := by
    cases v with
    | list items | tuple items =>
        cases hv
        exact ⟨rfl, rfl⟩
    | _ => cases hv
  simp only [isBetween, hitems, bind, Except.bind]
  rfl

variable {low high : Value} {l h : α}

theorem isWithin_of_comparesAs (hlow : low.ComparesAs a l x) (hhigh : a.ComparesAs high x h) :
    isWithin low a high = .ok (decide (l ≤ x ∧ x ≤ h)) := by
  have hrange : (l ≤ x ∧ x ≤ h) ↔ Ord.compare l x ≠ .gt ∧ Ord.compare x h ≠ .gt := by
    rw [compare_le_iff_le, compare_le_iff_le]
  simp only [isWithin, hlow.compare, hhigh.compare, bind, Except.bind, decide_eq_decide.2 hrange]
  cases Ord.compare l x <;> cases Ord.compare x h <;> rfl

/-- Nothing below the range is compared with its upper bound. -/
theorem isWithin_of_lower {d : Defect} (hlow : low.ComparesAs a l x)
    (hhigh : a.compare high = .error d) :
    isWithin low a high = if x < l then .ok false else .error d := by
  simp only [isWithin, hlow.compare, hhigh, bind, Except.bind]
  rcases lt_trichotomy l x with hlt | rfl | hlt
  · rw [compare_lt_iff_lt.2 hlt, if_neg hlt.not_gt]
  · rw [compare_eq_iff_eq.2 rfl, if_neg (lt_irrefl l)]
  · rw [compare_gt_iff_gt.2 hlt, if_pos hlt]
    rfl

end Value

namespace Operator

variable {op : Operator} {actual expected a b : Value} {r : Bool}

/-- Most operators never hold of an absent value, and compare a present one. -/
theorem test_of_present (hactual : actual.isNull = false)
    (hop : op ∉ [.isNull, .empty, .arrayEmpty, .neq, .notIn]) :
    op.test actual expected = op.testPresent actual expected := by
  cases op with
  | isNull | empty | arrayEmpty | neq | notIn => exact absurd hop (by decide)
  | _ =>
      cases actual with
      | null => cases hactual
      | _ => rfl

/-- **A comparison has the answer of the order** that the values stand for. -/
theorem test_of_comparesAs (hactual : actual.isNull = false)
    (halign : actual.align expected = .ok (a, b)) (h : a.ComparesAs b x y)
    (hr : op.answer? x [y] = some r) : op.test actual expected = .ok r := by
  have hordered (orders : List Ordering) := Value.isOrderedAs_of_comparesAs orders halign h
  have hmatches := Value.matchesValue_of_comparesAs hactual halign h
  obtain ⟨hgt, hge, hlt, hle⟩ := Value.contains_compare x y
  cases op with
  | eq =>
      cases hr
      rw [test_of_present hactual (by decide)]
      exact hmatches
  | neq =>
      cases hr
      simp only [test, hmatches, bind, Except.bind, decide_not]
      rfl
  | gt =>
      cases hr
      rw [test_of_present hactual (by decide), ← hgt]
      exact hordered _
  | gte =>
      cases hr
      rw [test_of_present hactual (by decide), ← hge]
      exact hordered _
  | lt =>
      cases hr
      rw [test_of_present hactual (by decide), ← hlt]
      exact hordered _
  | lte =>
      cases hr
      rw [test_of_present hactual (by decide), ← hle]
      exact hordered _
  | _ => cases hr

/-- An answer about a range comes from its operator and from whether the member is in it. -/
theorem answer?_range {low high : α} : op.answer? x [low, high] = some r ↔
    (op = .between ∨ op = .nbetween) ∧
      r = (decide (low ≤ x ∧ x ≤ high) != decide (op = .nbetween)) := by
  cases op <;> simp [answer?, eq_comm, -not_le]

/-- The one operator says whether a value lies in the range, the other one whether it does not. -/
theorem test_range (hop : op = .between ∨ op = .nbetween) (hactual : actual.isNull = false) :
    op.test actual expected =
      (actual.isBetween expected).map (· != decide (op = .nbetween)) := by
  rcases hop with rfl | rfl
  · rw [test_of_present hactual (by decide), testPresent]
    cases actual.isBetween expected <;> simp [Except.map]
  · rw [test_of_present hactual (by decide), testPresent]
    cases actual.isBetween expected <;> simp [Except.map, bind, Except.bind, pure, Except.pure]

end Operator

end Warden
