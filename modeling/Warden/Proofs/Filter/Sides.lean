import Warden.Proofs.Sample
import Warden.Proofs.Value.Order

/-! # The two sides of an equality

A text in the record is read as a date or as a number if the condition has one; a text in the
condition is not, if the record has one. Where that reading matters (**`Value.OneSided`**) it
matters which of the two values the record has: the one way round they are equal or cannot be
compared, the other way round they differ. All other pairs of single values are equal, different or
unknown whichever of them the record has (**`sides_alike_iff`**). -/

namespace Warden

namespace Value

/-- The first value is a text that only counts as a date or a number if the record has it, and so
is not simply different from the other one then: it has the same value, or none. -/
def OneSided (a b : Value) : Prop :=
  match a, b with
  | .text s, .date d => ∀ e, Date.ofIso? s = some e → e = d
  | .text s, b => b.number?.isSome = true ∧ ∀ x y, Decimal.ofText? s = some x →
      Decimal.ofText? b.display = some y → (decimal x).equals (decimal y) ≠ .ok false
  | _, _ => False

variable {a b : Value}

/-- Values without parts are present. -/
theorem isAtom_of_isScalar (h : a.isScalar = true) : a.isAtom = true ∧ a.isNull = false := by
  cases a with
  | null | bytes | list | tuple | set | record => cases h
  | _ => exact ⟨rfl, rfl⟩

/-! ## Pairs that are brought to one kind alike -/

/-- Two values are brought to the same atoms whichever comes first, or to none. -/
inductive Mirrored (a b : Value) : Prop where
  | atoms {x y : Value} (hx : x.isAtom = true) (hy : y.isAtom = true)
      (hab : a.align b = .ok (x, y)) (hba : b.align a = .ok (y, x))
  | error {d : Defect} (hab : a.align b = .error d) (hba : b.align a = .error d)

theorem Mirrored.symm (h : Mirrored a b) : Mirrored b a := by
  cases h with
  | atoms hx hy hab hba => exact .atoms hy hx hba hab
  | error hab hba => exact .error hba hab

/-- An identifier is compared by its text on either side. -/
theorem mirrored_uuid (u : Uuid) (hb : b.isAtom = true) : Mirrored (.uuid u) b := by
  cases b with
  | list | tuple | set | record => cases hb
  | _ => exact .atoms rfl rfl rfl rfl

/-- A text is read as a time on either side, and left alone beside what is no date or number. -/
theorem mirrored_text (s : String) (hb : b.isAtom = true) (hdate : ∀ d, b ≠ .date d)
    (hnumber : b.number? = none) : Mirrored (.text s) b := by
  cases b with
  | list | tuple | set | record => cases hb
  | bool | int | float | decimal => cases hnumber
  | date d => exact absurd rfl (hdate d)
  | uuid u => exact (mirrored_uuid u rfl).symm
  | datetime t =>
      cases hread : DateTime.ofIso? s with
      | some r =>
          refine .atoms (x := .datetime r) (y := .datetime t) rfl rfl ?_ ?_
          · rw [align, hread]
          · rw [align, hread]
      | none =>
          refine .error (d := .invalidValue) ?_ ?_
          · rw [align, hread]
          · rw [align, hread]
  | _ => exact .atoms rfl rfl rfl rfl

/-- Two values that are no texts are left alone, unless one of them is an identifier. -/
theorem mirrored_of_text? (ha : a.isAtom = true) (hb : b.isAtom = true) (hta : a.text? = none)
    (htb : b.text? = none) : Mirrored a b := by
  cases a with
  | list | tuple | set | record => cases ha
  | text => cases hta
  | uuid u => exact mirrored_uuid u hb
  | _ =>
      cases b with
      | list | tuple | set | record => cases hb
      | text => cases htb
      | uuid u => exact (mirrored_uuid u ha).symm
      | _ => exact .atoms rfl rfl rfl rfl

theorem Mirrored.matchesValue_comm (h : Mirrored a b) (ha : a.isNull = false)
    (hb : b.isNull = false) : a.matchesValue b = b.matchesValue a := by
  rw [matchesValue_of_present ha, matchesValue_of_present hb]
  cases h with
  | atoms hx hy hab hba =>
      rw [hab, hba]
      exact equals_comm hx hy
  | error hab hba => rw [hab, hba]

/-! ## Pairs that are not -/

/-- A text in the record is read as a date if the condition has one. -/
theorem matchesValue_text_date (s : String) (d : Date) : (text s).matchesValue (.date d) =
    match Date.ofIso? s with
    | some e => .ok (e == d)
    | none => .error .invalidValue := by
  rw [matchesValue_of_present rfl, align]
  cases Date.ofIso? s with
  | none => rfl
  | some e => simp [equals, signals, same, sameScalar, number?, bind, Except.bind]

/-- A text in the record is read as a number if the condition has one. -/
theorem matchesValue_text_number (s : String) (hb : b.number?.isSome = true) :
    (text s).matchesValue b =
      match Decimal.ofText? s, Decimal.ofText? b.display with
      | some x, some y => (decimal x).equals (decimal y)
      | _, _ => .error .undefinedResult := by
  rw [matchesValue_of_present rfl, align_text_number s hb]
  cases Decimal.ofText? s with
  | none => rfl
  | some x =>
      cases Decimal.ofText? b.display with
      | none => rfl
      | some y => rfl

/-- Equality has a result or is undefined. -/
theorem equals_cases (a b : Value) :
    a.equals b = .ok true ∨ a.equals b = .ok false ∨ a.equals b = .error .undefinedResult := by
  unfold equals
  split
  · exact .inr (.inr rfl)
  · cases a.same b with
    | true => exact .inl rfl
    | false => exact .inr (.inl rfl)

/-- A pair is one-sided if the text does not differ from the other value where the record has it. -/
theorem oneSided_iff {s : String} (hb : (∃ d, b = .date d) ∨ b.number?.isSome = true) :
    OneSided (.text s) b ↔ (text s).matchesValue b ≠ .ok false := by
  rcases hb with ⟨d, rfl⟩ | hb
  · rw [matchesValue_text_date, OneSided]
    cases Date.ofIso? s with
    | none => simp
    | some e => simp
  · have hnumber : OneSided (.text s) b ↔ ∀ x y, Decimal.ofText? s = some x →
        Decimal.ofText? b.display = some y → (decimal x).equals (decimal y) ≠ .ok false := by
      cases b with
      | bool | int | float | decimal => exact and_iff_right rfl
      | _ => cases hb
    rw [hnumber, matchesValue_text_number s hb]
    cases Decimal.ofText? s with
    | none => simp
    | some x =>
        cases Decimal.ofText? b.display with
        | none => simp
        | some y => simp

/-- A text that is read as a date or a number has a result or none, and does not break off. -/
theorem matchesValue_text_cases (s : String) (hb : (∃ d, b = .date d) ∨ b.number?.isSome = true) :
    (text s).matchesValue b = .ok true ∨ (text s).matchesValue b = .ok false ∨
      ∃ d, (text s).matchesValue b = .error d ∧ d.undecided = true := by
  rcases hb with ⟨d, rfl⟩ | hb
  · rw [matchesValue_text_date]
    cases Date.ofIso? s with
    | none => exact .inr (.inr ⟨_, rfl, rfl⟩)
    | some e =>
        cases h : e == d with
        | true => exact .inl (congrArg Except.ok h)
        | false => exact .inr (.inl (congrArg Except.ok h))
  · rw [matchesValue_text_number s hb]
    split
    · rcases equals_cases (decimal _) (decimal _) with h | h | h
      · exact .inl h
      · exact .inr (.inl h)
      · exact .inr (.inr ⟨_, h, rfl⟩)
    · exact .inr (.inr ⟨_, rfl, rfl⟩)

/-- Only texts beside dates and numbers are one-sided. -/
theorem OneSided.exists_text (h : OneSided a b) :
    ∃ s, a = .text s ∧ ((∃ d, b = .date d) ∨ b.number?.isSome = true) := by
  cases a with
  | text s =>
      refine ⟨s, rfl, ?_⟩
      cases b with
      | date d => exact .inl ⟨d, rfl⟩
      | _ => exact .inr h.1
  | _ => exact h.elim

/-- **A one-sided pair is different one way round**, and the other way round it is not. -/
theorem OneSided.matchesValue (h : OneSided a b) : b.matchesValue a = .ok false ∧
    (a.matchesValue b = .ok true ∨ ∃ d, a.matchesValue b = .error d ∧ d.undecided = true) := by
  obtain ⟨s, rfl, hb⟩ := h.exists_text
  refine ⟨differs_from_text s hb, ?_⟩
  rcases matchesValue_text_cases s hb with htrue | hfalse | herror
  · exact .inl htrue
  · exact absurd hfalse ((oneSided_iff hb).1 h)
  · exact .inr herror

theorem matchesValue_text_comm {s : String} (hb : b.isScalar = true)
    (h : ¬ OneSided (.text s) b) : (text s).matchesValue b = b.matchesValue (.text s) := by
  obtain ⟨hatom, hpresent⟩ := isAtom_of_isScalar hb
  by_cases hread : (∃ d, b = .date d) ∨ b.number?.isSome = true
  · -- the two differ one way round in any case
    rw [differs_from_text s hread]
    exact not_not.1 (mt (oneSided_iff hread).2 h)
  · have hdate : ∀ d, b ≠ .date d := fun d hd => hread (.inl ⟨d, hd⟩)
    have hnumber : b.number? = none := by
      cases hnumber : b.number? with
      | none => rfl
      | some x => exact absurd (.inr (by rw [hnumber]; rfl)) hread
    exact (mirrored_text s hatom hdate hnumber).matchesValue_comm rfl hpresent

/-- All other pairs are compared alike. -/
theorem matchesValue_comm (ha : a.isScalar = true) (hb : b.isScalar = true)
    (hab : ¬ OneSided a b) (hba : ¬ OneSided b a) : a.matchesValue b = b.matchesValue a := by
  cases hta : a.text? with
  | some s =>
      obtain rfl : a = .text s := by
        cases a with
        | text t => exact congrArg text (Option.some.inj hta)
        | _ => cases hta
      exact matchesValue_text_comm hb hab
  | none =>
      cases htb : b.text? with
      | some s =>
          obtain rfl : b = .text s := by
            cases b with
            | text t => exact congrArg text (Option.some.inj htb)
            | _ => cases htb
          exact (matchesValue_text_comm ha hba).symm
      | none =>
          obtain ⟨hatom, hpresent⟩ := isAtom_of_isScalar ha
          obtain ⟨hatom', hpresent'⟩ := isAtom_of_isScalar hb
          exact (mirrored_of_text? hatom hatom' hta htb).matchesValue_comm hpresent hpresent'

/-- Values that cannot be brought to one kind are left undecided. -/
theorem undecided_of_align {d : Defect} (h : a.align b = .error d) : d.undecided = true := by
  unfold align at h
  split at h
  case h_1 | h_2 | h_3 =>
    -- a text that is no time or no date
    split at h
    · cases h
    · cases h
      rfl
  case h_4 | h_5 | h_7 => cases h
  case h_6 =>
    -- a text beside a number, one of which is not written like a number
    split at h
    · split at h
      · cases h
      · cases h
        rfl
    · cases h

/-- So are values that have no equality then. -/
theorem undecided_of_matchesValue {d : Defect} (ha : a.isNull = false)
    (h : a.matchesValue b = .error d) : d.undecided = true := by
  rw [matchesValue_of_present ha] at h
  cases halign : a.align b with
  | error e =>
      rw [halign] at h
      cases h
      exact undecided_of_align halign
  | ok pair =>
      rw [halign] at h
      rcases equals_cases pair.1 pair.2 with heq | heq | heq
      · cases h.symm.trans heq
      · cases h.symm.trans heq
      · cases h.symm.trans heq
        rfl

end Value

/-! ## Conditions -/

namespace Operator

variable {op : Operator} {a b : Value}

/-- What the operator takes if a value is compared with one other: that value or a list of it. -/
def operand (op : Operator) (v : Value) : Value :=
  match op with
  | .isIn | .notIn => .list [v]
  | _ => v

/-- The operator holds of values that differ. -/
def ofDifferent (op : Operator) : Bool :=
  match op with
  | .neq | .notIn => true
  | _ => false

/-- What the operator makes of the result of an equality. -/
def outcome (op : Operator) : Except Defect Bool → Truth
  | .ok same => .ofBool (same != op.ofDifferent)
  | .error _ => .unknown

theorem test_operand (hop : op ∈ [.eq, .neq, .isIn, .notIn]) (ha : a.isNull = false) (b : Value) :
    op.test a (op.operand b) = (a.matchesValue b).map (· != op.ofDifferent) := by
  have hone : a.matchesOne [b] = a.matchesValue b := by
    simp only [Value.matchesOne]
    cases a.matchesValue b with
    | error d => rfl
    | ok same => cases same <;> rfl
  simp only [List.mem_cons, List.not_mem_nil, or_false] at hop
  have hsame : (a.matchesValue b).map (· != false) = a.matchesValue b := by
    cases a.matchesValue b <;> simp [Except.map]
  have hdifferent : (a.matchesValue b).map (· != true) = (do return !(← a.matchesValue b)) := by
    cases a.matchesValue b <;> simp [Except.map, bind, Except.bind, pure, Except.pure]
  rcases hop with rfl | rfl | rfl | rfl
  · exact (test_of_present ha (by decide)).trans hsame.symm
  · exact hdifferent.symm
  · refine Eq.trans ?_ hsame.symm
    rw [← hone]
    cases a with
    | null => cases ha
    | _ => rfl
  · refine Eq.trans ?_ hdifferent.symm
    rw [← hone]
    cases a with
    | null => cases ha
    | _ => rfl

end Operator

/-- A condition that compares for equality has the outcome of that. -/
theorem Condition.evaluate_operand {op : Operator} (hop : op ∈ [.eq, .neq, .isIn, .notIn])
    {field : String} (hdirect : Text.hasChar '.' field = false) {a : Value} {r : Record}
    (hr : r.get field = a) (ha : a.isNull = false) (b : Value) (cast : Option String) :
    Condition.evaluate ⟨field, op, op.operand b, cast⟩ r =
      .ok (op.outcome (a.matchesValue b)) := by
  have hdecidable : op.undecidable = false := by
    simp only [List.mem_cons, List.not_mem_nil, or_false] at hop
    rcases hop with rfl | rfl | rfl | rfl <;> rfl
  simp only [evaluate, hdirect, hdecidable, Bool.or_self, Bool.false_eq_true, if_false, hr,
    Operator.test_operand hop ha]
  cases hresult : a.matchesValue b with
  | ok same => rfl
  | error d => exact if_pos (Value.undecided_of_matchesValue ha hresult)

/-- Two values that differ have another outcome than two that are equal or undecided. -/
theorem Operator.outcome_ne {op : Operator} {result : Except Defect Bool}
    (h : result = .ok true ∨ ∃ d, result = .error d ∧ d.undecided = true) :
    op.outcome result ≠ op.outcome (.ok false) := by
  rcases h with rfl | ⟨d, rfl, -⟩ <;> cases hop : op.ofDifferent <;>
    simp [outcome, hop, Truth.ofBool]

/-- **Equality does not depend on the side**, except for one-sided pairs: where the condition has
the text of such a pair, the two values definitely differ, and where the record has it they do
not. -/
theorem sides_alike_iff {op : Operator} (hop : op ∈ [.eq, .neq, .isIn, .notIn]) {a b : Value}
    (ha : a.isScalar = true) (hb : b.isScalar = true) {field : String} {cast : Option String}
    {r r' : Record} (hr : r.get field = a) (hr' : r'.get field = b) :
    ∃ t t', Condition.evaluate ⟨field, op, op.operand b, cast⟩ r = .ok t ∧
      Condition.evaluate ⟨field, op, op.operand a, cast⟩ r' = .ok t' ∧
      (t = t' ↔ Text.hasChar '.' field = true ∨ ¬ a.OneSided b ∧ ¬ b.OneSided a) ∧
      (Text.hasChar '.' field = false → a.OneSided b → t' = .ofBool op.ofDifferent) := by
  cases hdotted : Text.hasChar '.' field with
  | true =>
      refine ⟨.unknown, .unknown, ?_, ?_, by simp, by simp⟩
      · simp [Condition.evaluate, hdotted]
      · simp [Condition.evaluate, hdotted]
  | false =>
      have hpresent := (Value.isAtom_of_isScalar ha).2
      have hpresent' := (Value.isAtom_of_isScalar hb).2
      -- both outcomes come from one equality, read from its two sides
      refine ⟨_, _, Condition.evaluate_operand hop hdotted hr hpresent b cast,
        Condition.evaluate_operand hop hdotted hr' hpresent' a cast, ?_, ?_⟩
      · constructor
        · intro heq
          refine .inr ⟨fun h => ?_, fun h => ?_⟩
          · obtain ⟨hfalse, hother⟩ := h.matchesValue
            rw [hfalse] at heq
            exact Operator.outcome_ne hother heq
          · obtain ⟨hfalse, hother⟩ := h.matchesValue
            rw [hfalse] at heq
            exact Operator.outcome_ne hother heq.symm
        · rintro (h | ⟨hab, hba⟩)
          · cases h
          · rw [Value.matchesValue_comm ha hb hab hba]
      · intro _ h
        rw [h.matchesValue.1]
        cases hop : op.ofDifferent <;> simp [Operator.outcome, hop]

/-- Some noon and the text of it are no one-sided pair. -/
theorem sides_alike_noon :
    (Value.datetime Sample.noon).isScalar = true ∧
    ∃ t, Condition.evaluate ⟨"at", .neq, .text "2024-03-15T12:00:00+00:00", none⟩
        [("at", .datetime Sample.noon)] = .ok t ∧
      Condition.evaluate ⟨"at", .neq, .datetime Sample.noon, none⟩
        [("at", .text "2024-03-15T12:00:00+00:00")] = .ok t := by
  obtain ⟨t, t', ht, ht', hiff, -⟩ := @sides_alike_iff .neq (by decide)
    (.datetime Sample.noon) (.text "2024-03-15T12:00:00+00:00") rfl rfl "at" none
    [("at", .datetime Sample.noon)] [("at", .text "2024-03-15T12:00:00+00:00")] rfl rfl
  have halike : t = t' := hiff.2 (.inr ⟨id, fun h => nomatch h.1⟩)
  exact ⟨rfl, t, ht, halike ▸ ht'⟩

/-- The number five and its text are equal if the record has the text, and different if it has the
number; a date and its text likewise. -/
theorem sides_of_five_differ :
    (Condition.evaluate ⟨"n", .eq, .int 5, none⟩ [("n", .text "5")] = .ok .holds ∧
      Condition.evaluate ⟨"n", .eq, .text "5", none⟩ [("n", .int 5)] = .ok .fails) ∧
    (Condition.evaluate ⟨"on", .eq, .date ⟨2024, 3, 15⟩, none⟩ [("on", .text "2024-03-15")] =
        .ok .holds ∧
      Condition.evaluate ⟨"on", .eq, .text "2024-03-15", none⟩ [("on", .date ⟨2024, 3, 15⟩)] =
        .ok .fails) := by
  refine ⟨⟨?_, ?_⟩, ?_, ?_⟩
  all_goals decide +kernel

end Warden
