import Warden.Proofs.Sample
import Warden.Proofs.Sql.Condition

/-! # Casts to numbers, in memory and in the database

Where a condition casts its field to a numeric type, the database compares integers, even if the
column or the operands are texts of them (**`Test.castTruth?`**). In memory the cast is not looked
at: texts are only read as numbers if the record has the text and the operand is a number. Numbers
are never equal to texts, and two texts are compared by their characters.

Most of the other comparisons have no result and leave the condition unknown.
**`Operator.Misjudges`** lists those that have a wrong one, and **`cast_honoured_iff`** says that
these are all. -/

namespace Warden

open Sql

/-! ## Integers and their texts -/

/-- The integer that a value is or that it is the plain text of. -/
def Value.integer? : Value → Option Int
  | .int n => some n
  | .text s => IntegerText.plain? s
  | _ => none

theorem Value.isNull_of_integer? {v : Value} {n : Int} (h : v.integer? = some n) :
    v.isNull = false := by
  cases v with
  | null => cases h
  | _ => rfl

/-- The values that the operator takes: the two bounds of a range, or the value itself. -/
def Operator.operands? (op : Operator) (v : Value) : Option (List Value) :=
  match op with
  | .between | .nbetween => v.items?
  | _ => some [v]

/-- The truth value of a test of a column that is cast to a numeric type and is then `m`. -/
def Sql.Test.castTruth? (m : Int) : Test → Option Truth
  | .compare ⟨_, some _⟩ .distinct v => v.integer?.map fun n => .ofBool (m ≠ n)
  | .compare ⟨_, some _⟩ comparator v => do
    let holds ← comparator.holds?
    let n ← v.integer?
    return .ofBool (holds m n)
  | .between ⟨_, some _⟩ low high => do
    let l ← low.integer?
    let h ← high.integer?
    return .ofBool (l ≤ m ∧ m ≤ h)
  | .notBetween ⟨_, some _⟩ low high => do
    let l ← low.integer?
    let h ← high.integer?
    return .ofBool (¬ (l ≤ m ∧ m ≤ h))
  | _ => none

namespace Operator

variable {op : Operator} {actual v : Value} {vs : List Value} {m n : Int} {ns : List Int} {b : Bool}

/-- Memory has another answer than the one that the integers have. -/
def Misjudges (op : Operator) (b : Bool) (actual : Value) (operands : List Value) : Prop :=
  match actual, operands with
  -- a number is not equal to the text of it
  | .int m, [.text t] => (op = .eq ∨ op = .neq) ∧ IntegerText.plain? t = some m
  -- texts have the order of their characters
  | .text s, [.text t] => op.answer? s [t] ≠ some b
  | .text s, [.text low, .text high] => op.answer? s [low, high] ≠ some b
  -- and a text below the lower bound is not compared with the upper one
  | .text s, [.text low, .int high] =>
    s < low ∧ b ≠ decide (op = .nbetween) ∧
      (Decimal.ofText? s).isSome ∧ (Decimal.ofText? (toString high)).isSome
  | _, _ => False

/-- The result of a comparison is the answer, or leaves the condition unknown. -/
def Honours (b : Bool) (result : Except Defect Bool) : Prop :=
  result = .ok b ∨ ∃ d, result = .error d ∧ d.undecided = true

/-- A comparison that goes wrong has the other answer, and every other one is honoured. -/
inductive Judged (wrong : Prop) (b : Bool) (result : Except Defect Bool) : Prop where
  | misjudged (h : wrong) (hresult : result = .ok (!b))
  | honoured (h : ¬ wrong) (hresult : Honours b result)

/-- A result with one answer is honoured or goes wrong. -/
theorem judged_of_ok {wrong : Prop} {r : Bool} {result : Except Defect Bool}
    (hresult : result = .ok r) (hwrong : wrong ↔ r ≠ b) : Judged wrong b result := by
  by_cases h : r = b
  · exact .honoured (mt hwrong.1 (not_not_intro h)) (.inl (h ▸ hresult))
  · exact .misjudged (hwrong.2 h) (by rw [hresult, Bool.eq_not.2 h])

/-! ## Bringing texts to numbers -/

theorem align_text_int (s : String) (n : Int) : (Value.text s).align (.int n) =
    match Decimal.ofText? s, Decimal.ofText? (toString n) with
    | some x, some y => .ok (.decimal x, .decimal y)
    | _, _ => .error .undefinedResult := by
  have hdisplay : (Value.int n).display = toString n := String.ofList_toList
  have halign := Value.align_text_number s (b := .int n) rfl
  rw [hdisplay] at halign
  exact halign

/-- What a plain text is read as is the whole number that it writes. -/
theorem isWhole_of_plain {s : String} {x : Decimal} (hs : IntegerText.plain? s = some n)
    (hx : Decimal.ofText? s = some x) : (Value.decimal x).IsWhole n := by
  rcases Decimal.ofText?_of_plain hs with hnone | ⟨negative, k, hsome, hsigned⟩
  · rw [hnone] at hx
    cases hx
  · rw [hsome] at hx
    cases hx
    exact ⟨negative, k, rfl, hsigned⟩

/-- Brought to the kind of an integer, an integer or a text is compared as one. -/
theorem align_int_of_integer? (hactual : actual.integer? = some m) (n : Int) :
    actual.align (.int n) = .error .undefinedResult ∨
      ∃ x y, actual.align (.int n) = .ok (x, y) ∧ x.IsWhole m ∧ y.IsWhole n := by
  cases actual with
  | int k =>
      cases hactual
      exact .inr ⟨_, _, rfl, Value.isWhole_int m, Value.isWhole_int n⟩
  | text s =>
      rw [align_text_int]
      split
      · rename_i x y hx hy
        exact .inr ⟨_, _, rfl, isWhole_of_plain hactual hx,
          isWhole_of_plain (IntegerText.plain?_toString n) hy⟩
      · exact .inl rfl
  | _ => cases hactual

/-! ## One operand -/

/-- A comparison of one value with another has six operators. -/
theorem mem_of_answer? {α : Type*} [LinearOrder α] {x y : α} (h : op.answer? x [y] = some b) :
    op ∈ [.eq, .neq, .gt, .gte, .lt, .lte] := by
  cases op with
  | eq | neq | gt | gte | lt | lte => decide
  | _ => cases h

/-- Values that cannot be brought to one kind leave the comparison without a result. -/
theorem test_of_align_error {d : Defect} (hop : op ∈ [.eq, .neq, .gt, .gte, .lt, .lte])
    (hactual : actual.isNull = false) (h : actual.align v = .error d) :
    op.test actual v = .error d := by
  have hmatches : actual.matchesValue v = .error d := by
    rw [Value.matchesValue_of_present hactual, h]
    rfl
  have hordered (orders : List Ordering) : Value.isOrderedAs orders actual v = .error d := by
    rw [Value.isOrderedAs, h]
    rfl
  cases op with
  | eq =>
      rw [test_of_present hactual (by decide)]
      exact hmatches
  | neq =>
      rw [test, hmatches]
      rfl
  | gt | gte | lt | lte =>
      rw [test_of_present hactual (by decide)]
      exact hordered _
  | _ => simp at hop

/-- A comparison with an integer is honoured. -/
theorem honours_of_int (hactual : actual.integer? = some m) (hb : op.answer? m [n] = some b) :
    Honours b (op.test actual (.int n)) := by
  have hpresent := Value.isNull_of_integer? hactual
  rcases align_int_of_integer? hactual n with herror | ⟨x, y, hok, hx, hy⟩
  · exact .inr ⟨_, test_of_align_error (mem_of_answer? hb) hpresent herror, rfl⟩
  · exact .inl (test_of_comparesAs hpresent hok (Value.comparesAs_of_isWhole hx hy) hb)

/-- A number is not equal to a text, and has no order with one. -/
theorem judged_int_text {t : String} (ht : IntegerText.plain? t = some n)
    (hb : op.answer? m [n] = some b) :
    Judged (op.Misjudges b (.int m) [.text t]) b (op.test (.int m) (.text t)) := by
  have hmatches : (Value.int m).matchesValue (.text t) = .ok false :=
    Value.differs_from_text t (.inr rfl)
  have hcompare : (Value.int m).compare (.text t) = .error .wrongKind :=
    Value.compare_unlike (.inl ⟨rfl, rfl⟩)
  have hordered (orders : List Ordering) :
      Value.isOrderedAs orders (.int m) (.text t) = .error .wrongKind := by
    have halign : (Value.int m).align (.text t) = .ok (.int m, .text t) := rfl
    simp only [Value.isOrderedAs, halign, bind, Except.bind, hcompare]
  have hwrong : op.Misjudges b (.int m) [.text t] ↔ (op = .eq ∨ op = .neq) ∧ n = m := by
    rw [Misjudges, ht, Option.some.injEq]
  cases op with
  | eq =>
      cases hb
      refine judged_of_ok (r := false) ?_ ?_
      · rw [test_of_present rfl (by decide)]
        exact hmatches
      · rw [hwrong, eq_comm (a := n)]
        simp
  | neq =>
      cases hb
      refine judged_of_ok (r := true) ?_ ?_
      · simp only [test, hmatches, bind, Except.bind]
        rfl
      · rw [hwrong, eq_comm (a := n)]
        simp
  | gt | gte | lt | lte =>
      refine .honoured (by simp [hwrong]) (.inr ⟨.wrongKind, ?_, rfl⟩)
      rw [test_of_present rfl (by decide)]
      exact hordered _
  | _ => cases hb

/-- Whether an operator takes so many operands does not depend on what they are. -/
theorem answer?_isSome {α β : Type*} [LinearOrder α] [LinearOrder β] {x : α} {xs : List α}
    {y : β} {ys : List β} (hlength : xs.length = ys.length) :
    (op.answer? x xs).isSome = (op.answer? y ys).isSome := by
  match xs, ys with
  | [], [] => rfl
  | [_], [_] => cases op <;> rfl
  | [_, _], [_, _] => cases op <;> rfl
  | _ :: _ :: _ :: _, _ :: _ :: _ :: _ => rfl

/-- **One operand**: its comparison is honoured or goes wrong as listed. -/
theorem judged_one (hactual : actual.integer? = some m) (hv : v.integer? = some n)
    (hb : op.answer? m [n] = some b) :
    Judged (op.Misjudges b actual [v]) b (op.test actual v) := by
  cases v with
  | int k =>
      -- beside an integer the record's text is read as a number, if it is one
      cases hv
      refine .honoured ?_ (honours_of_int hactual hb)
      cases actual <;> exact id
  | text t =>
      cases actual with
      | int k =>
          cases hactual
          exact judged_int_text hv hb
      | text s =>
          obtain ⟨r, hr⟩ : ∃ r, op.answer? s [t] = some r := by
            have hsome : (op.answer? m [n]).isSome = (op.answer? s [t]).isSome := answer?_isSome rfl
            rw [hb] at hsome
            exact Option.isSome_iff_exists.1 hsome.symm
          refine judged_of_ok (test_of_comparesAs rfl rfl (Value.comparesAs_text s t) hr) ?_
          simp [Misjudges, hr]
      | _ => cases hactual
  | _ => cases hv

/-! ## Two operands -/

variable {low high : Value} {l h : Int}

/-- Nothing is brought to the kind of a text. -/
theorem align_text (hactual : actual.integer? = some m) (t : String) :
    actual.align (.text t) = .ok (actual, .text t) := by
  cases actual with
  | int | text => rfl
  | _ => cases hactual

/-- What the range says is turned around where the operator does. -/
theorem Honours.map {result : Except Defect Bool} (hresult : Honours b result) (negated : Bool) :
    Honours (b != negated) (result.map (· != negated)) := by
  rcases hresult with rfl | ⟨d, rfl, hd⟩
  · exact .inl rfl
  · exact .inr ⟨d, rfl, hd⟩

/-- A range with an integer as its lower bound is honoured. -/
theorem honours_of_low_int (hactual : actual.integer? = some m)
    (hitems : v.items? = some [.int l, high]) (hhigh : high.integer? = some h) :
    Honours (decide (l ≤ m ∧ m ≤ h)) (actual.isBetween v) := by
  rw [Value.isBetween_of_items? hitems]
  rcases align_int_of_integer? hactual l with herror | ⟨x, y, hok, hx, hy⟩
  · rw [herror]
    exact .inr ⟨_, rfl, rfl⟩
  rw [hok]
  cases high with
  | int k =>
      cases hhigh
      rcases align_int_of_integer? hactual h with herror | ⟨x', z, hok', -, hz⟩
      · rw [herror]
        exact .inr ⟨_, rfl, rfl⟩
      · rw [hok']
        exact .inl (Value.isWithin_of_comparesAs (Value.comparesAs_of_isWhole hy hx)
          (Value.comparesAs_of_isWhole hx hz))
  | text t =>
      rw [align_text hactual]
      have hwithin := Value.isWithin_of_lower (Value.comparesAs_of_isWhole hy hx)
        (Value.compare_unlike (b := .text t) (.inl ⟨hx.isSome, rfl⟩))
      -- what is below the range is out of it, whatever the upper bound
      by_cases hlt : m < l
      · have hout : decide (l ≤ m ∧ m ≤ h) = false := by simp [hlt]
        rw [if_pos hlt] at hwithin
        exact .inl (hwithin.trans (hout ▸ rfl))
      · rw [if_neg hlt] at hwithin
        exact .inr ⟨_, hwithin, rfl⟩
  | _ => cases hhigh

/-- An integer is not compared with a lower bound that is a text. -/
theorem isBetween_int_text {t : String} (hitems : v.items? = some [.text t, high])
    (hhigh : high.integer? = some h) : (Value.int m).isBetween v = .error .wrongKind := by
  have hcompare : (Value.text t).compare (.int m) = .error .wrongKind :=
    Value.compare_unlike (.inr ⟨rfl, rfl⟩)
  have halign : (Value.int m).align high = .ok (.int m, high) := by
    cases high with
    | int | text => rfl
    | _ => cases hhigh
  rw [Value.isBetween_of_items? hitems, halign]
  show Value.isWithin (.text t) (.int m) high = _
  rw [Value.isWithin, hcompare]
  rfl

/-- Bounds that are texts are compared with a text by their characters. -/
theorem isBetween_text_text {s t t' : String} (hitems : v.items? = some [.text t, .text t']) :
    (Value.text s).isBetween v = .ok (decide (t ≤ s ∧ s ≤ t')) := by
  rw [Value.isBetween_of_items? hitems]
  exact Value.isWithin_of_comparesAs (Value.comparesAs_text t s) (Value.comparesAs_text s t')

/-- A text is compared with a lower bound that is one, but not with a number. -/
theorem isBetween_text_int {s t : String} (hitems : v.items? = some [.text t, .int h]) :
    (Value.text s).isBetween v =
      if (Decimal.ofText? s).isSome ∧ (Decimal.ofText? (toString h)).isSome then
        if s < t then .ok false else .error .wrongKind
      else .error .undefinedResult := by
  rw [Value.isBetween_of_items? hitems, align_text_int]
  cases Decimal.ofText? s with
  | none => rfl
  | some x =>
      cases Decimal.ofText? (toString h) with
      | none => rfl
      | some y =>
          exact Value.isWithin_of_lower (Value.comparesAs_text t s)
            (Value.compare_unlike (.inr ⟨rfl, rfl⟩))

/-- **Two operands**: their comparison is honoured or goes wrong as listed. -/
theorem judged_two (hactual : actual.integer? = some m) (hitems : v.items? = some [low, high])
    (hlow : low.integer? = some l) (hhigh : high.integer? = some h)
    (hb : op.answer? m [l, h] = some b) :
    Judged (op.Misjudges b actual [low, high]) b (op.test actual v) := by
  obtain ⟨hop, rfl⟩ := answer?_range.1 hb
  have hpresent := Value.isNull_of_integer? hactual
  rw [test_range hop hpresent]
  cases low with
  | int k =>
      cases hlow
      refine .honoured ?_ ((honours_of_low_int hactual hitems hhigh).map _)
      cases actual <;> exact id
  | text t =>
      cases actual with
      | int k =>
          rw [isBetween_int_text hitems hhigh]
          exact .honoured id (.inr ⟨_, rfl, rfl⟩)
      | text s =>
          cases high with
          | text t' =>
              rw [isBetween_text_text hitems]
              refine judged_of_ok rfl ?_
              have hanswer : op.answer? s [t, t'] =
                  some (decide (t ≤ s ∧ s ≤ t') != decide (op = .nbetween)) :=
                answer?_range.2 ⟨hop, rfl⟩
              rw [Misjudges, hanswer, ne_eq, Option.some.injEq]
          | int k =>
              cases hhigh
              rw [isBetween_text_int hitems]
              split_ifs with hread hlt
              · refine judged_of_ok rfl ?_
                simp only [Misjudges, hlt, hread, true_and, and_true, Bool.false_bne]
                exact ne_comm
              · exact .honoured (fun hwrong => hlt hwrong.1) (.inr ⟨_, rfl, rfl⟩)
              · exact .honoured (fun hwrong => hread hwrong.2.2) (.inr ⟨_, rfl, rfl⟩)
          | _ => cases hhigh
      | _ => cases hactual
  | _ => cases hlow

/-- A comparison has the value as its operand or two bounds in it. -/
theorem operands_cases (hvs : op.operands? v = some vs)
    (hns : List.Forall₂ (fun v n => v.integer? = some n) vs ns) (hb : op.answer? m ns = some b) :
    (∃ n, vs = [v] ∧ ns = [n] ∧ v.integer? = some n) ∨
    ∃ low high l h, v.items? = some [low, high] ∧ vs = [low, high] ∧ ns = [l, h] ∧
      low.integer? = some l ∧ high.integer? = some h := by
  cases hns with
  | nil => cases hb
  | cons hn hrest =>
      cases hrest with
      | nil =>
          have hsingle : op.operands? v = some [v] := by
            cases op with
            | between | nbetween => cases hb
            | _ => rfl
          rw [hsingle] at hvs
          cases hvs
          exact .inl ⟨_, rfl, rfl, hn⟩
      | cons hh hrest =>
          cases hrest with
          | nil =>
              obtain ⟨rfl | rfl, -⟩ := answer?_range.1 hb <;>
                exact .inr ⟨_, _, _, _, hvs, rfl, rfl, hn, hh⟩
          | cons => cases hb

/-- **A comparison of integers and their texts is honoured or goes wrong as listed.** -/
theorem judged (hactual : actual.integer? = some m) (hvs : op.operands? v = some vs)
    (hns : List.Forall₂ (fun v n => v.integer? = some n) vs ns) (hb : op.answer? m ns = some b) :
    Judged (op.Misjudges b actual vs) b (op.test actual v) := by
  rcases operands_cases hvs hns hb with
    ⟨n, rfl, rfl, hn⟩ | ⟨low, high, l, h, hitems, rfl, rfl, hlow, hhigh⟩
  · exact judged_one hactual hn hb
  · exact judged_two hactual hitems hlow hhigh hb

/-! ## The database -/

/-- The database is asked to compare integers, and has their answer. -/
theorem castTruth?_operatorPredicate (column : Column) (cast : String) (family : TypeFamily)
    (hvs : op.operands? v = some vs) (hns : List.Forall₂ (fun v n => v.integer? = some n) vs ns)
    (hb : op.answer? m ns = some b) :
    ∃ t, operatorPredicate op ⟨column, some cast⟩ family v = .ok (.test t) ∧
      t.castTruth? m = some (.ofBool b) := by
  rcases operands_cases hvs hns hb with
    ⟨n, rfl, rfl, hn⟩ | ⟨low, high, l, h, hitems, rfl, rfl, hlow, hhigh⟩
  · cases op with
    | eq | neq | gt | gte | lt | lte =>
        cases hb
        refine ⟨_, rfl, ?_⟩
        simp [Test.castTruth?, Comparator.holds?, hn]
    | _ => cases hb
  · have hbounds := Value.bounds_of_items? hitems
    obtain ⟨rfl | rfl, rfl⟩ := answer?_range.1 hb
    · refine ⟨.between ⟨column, some cast⟩ low high, ?_, ?_⟩
      · rw [operatorPredicate, hbounds]
        rfl
      · simp [Test.castTruth?, hlow, hhigh]
    · refine ⟨.notBetween ⟨column, some cast⟩ low high, ?_, ?_⟩
      · rw [operatorPredicate, hbounds]
        rfl
      · simp only [Test.castTruth?, hlow, hhigh, Option.bind_eq_bind, Option.bind_some, decide_not,
          decide_true, Bool.bne_true]
        rfl

end Operator

/-- **What a cast to a numeric type is worth in memory**: the database compares integers, and memory
has the same answer or none except for the comparisons that go wrong as listed, where it has the
other one. Behind a relation it has none. -/
theorem cast_honoured_iff {c : Collection} {condition : Condition} {record : Record} {m : Int}
    {vs : List Value} {ns : List Int} {b : Bool}
    (hcast : condition.cast ∈ [some "numeric", some "integer", some "bigint"])
    (hm : (record.get condition.field).integer? = some m)
    (hvs : condition.operator.operands? condition.value = some vs)
    (hns : List.Forall₂ (fun v n => v.integer? = some n) vs ns)
    (hb : condition.operator.answer? m ns = some b) :
    (Text.hasChar '.' condition.field = false → c.hasField condition.field = true →
      ∀ k a n, ∃ t, (Filter.leaf condition).predicate k c a n = .ok (.test t, n) ∧
        t.castTruth? m = some (.ofBool b)) ∧
    ∃ t, condition.evaluate record = .ok t ∧
      (t = .unknown ∨ t = .ofBool b ↔ Text.hasChar '.' condition.field = true ∨
        ¬ condition.operator.Misjudges b (record.get condition.field) vs) := by
  obtain ⟨field, op, v, cast⟩ := condition
  constructor
  · intro hdirect hdeclared k a n
    obtain ⟨f, hf⟩ := Option.isSome_iff_exists.1 hdeclared
    obtain ⟨name, rfl, hname, family, hfamily⟩ : ∃ name, cast = some name ∧
        name.isEmpty = false ∧ ∃ family, castFamily? name = some family := by
      simp only [List.mem_cons, List.not_mem_nil, or_false] at hcast
      rcases hcast with rfl | rfl | rfl <;> exact ⟨_, rfl, by decide, _, rfl⟩
    obtain ⟨t, hp, ht⟩ :=
      Operator.castTruth?_operatorPredicate ⟨a, field⟩ name family hvs hns hb
    refine ⟨t, ?_, ht⟩
    simp only [Filter.predicate, split_of_direct hdirect, pathPredicate, fieldPredicate, hf, hname,
      hfamily, hp]
    rfl
  · have hop : op.undecidable = false := by
      rcases Operator.operands_cases hvs hns hb with ⟨n, -, rfl, -⟩ | ⟨_, _, l, h, -, -, rfl, -, -⟩
      · have hmem := Operator.mem_of_answer? hb
        cases op <;> first | rfl | simp at hmem
      · obtain ⟨rfl | rfl, -⟩ := Operator.answer?_range.1 hb <;> rfl
    simp only [Condition.evaluate, hop, Bool.or_false]
    cases hdotted : Text.hasChar '.' field with
    | true =>
        -- paths through relations are unknown before the operator is looked at
        exact ⟨.unknown, rfl, by simp⟩
    | false =>
        simp only [Bool.false_eq_true, if_false, false_or]
        rcases Operator.judged hm hvs hns hb with ⟨hwrong, hok⟩ | ⟨hright, hok | ⟨d, herror, hd⟩⟩
        · refine ⟨.ofBool !b, ?_, ?_⟩
          · rw [hok]
          · cases b <;> simp [Truth.ofBool, hwrong]
        · refine ⟨.ofBool b, ?_, ?_⟩
          · rw [hok]
          · simp [hright]
        · refine ⟨.unknown, ?_, ?_⟩
          · rw [herror]
            exact if_pos hd
          · simp [hright]

/-- A title that is the text of an integer is compared with an integer as that. -/
theorem cast_honoured_title :
    (Value.text "10").integer? = some 10 ∧
    (∀ k a n, ∃ t,
      (Filter.leaf ⟨"title", .gt, .int 9, some "numeric"⟩).predicate k Sample.posts a n =
        .ok (.test t, n) ∧ t.castTruth? 10 = some .holds) ∧
    ∃ t, Condition.evaluate ⟨"title", .gt, .int 9, some "numeric"⟩ [("title", .text "10")] = .ok t ∧
      (t = .unknown ∨ t = .holds) := by
  have hten : (Value.text "10").integer? = some 10 := by decide +kernel
  obtain ⟨hpredicate, t, ht, hiff⟩ := @cast_honoured_iff Sample.posts
    ⟨"title", .gt, .int 9, some "numeric"⟩ [("title", .text "10")] 10 _ [9] true (by decide) hten
    rfl (.cons rfl .nil) rfl
  exact ⟨hten, hpredicate (by decide) (by decide), t, ht, hiff.2 (.inr id)⟩

/-- As texts ten does not stand behind nine, and the number five is not the text of it. -/
theorem texts_of_numbers_misjudged :
    ((Value.text "10").integer? = some 10 ∧ (Value.text "9").integer? = some 9 ∧
      Operator.gt.answer? (10 : Int) [9] = some true ∧
      Condition.evaluate ⟨"n", .gt, .text "9", some "numeric"⟩ [("n", .text "10")] = .ok .fails) ∧
    ((Value.text "5").integer? = some 5 ∧ Operator.eq.answer? (5 : Int) [5] = some true ∧
      Condition.evaluate ⟨"n", .eq, .text "5", some "integer"⟩ [("n", .int 5)] = .ok .fails) := by
  refine ⟨⟨by decide +kernel, by decide +kernel, rfl, ?_⟩, by decide +kernel, rfl, ?_⟩
  · decide +kernel
  · decide +kernel

end Warden
