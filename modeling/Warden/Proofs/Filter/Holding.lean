import Warden.Filter.Evaluation
import Warden.Proofs.Filter.Folding

/-! # When filters hold

A filter **holds** of a record (`Filter.Holds`) when evaluating it ends with that answer: a filter
that is unknown, or that breaks off, does not hold. A conjunction holds iff all of its parts do
(`holds_conjoin`), however it was folded.

What a filter says of a record depends on the fields of its conditions alone (`evaluate_congr`).

A filter with variables holds **under** a replacement of its conditions (`Filter.HoldsUnder`) when
the replacement succeeds and what comes out holds. Here, too, a folded conjunction is the same as
all of its parts (`holdsUnder_conjoin`), although the replacement folds the tree anew. -/

namespace Warden

/-! ## What a filter looks at -/

/-- A condition looks at its own field. -/
theorem Condition.evaluate_congr {c : Condition} {record other : Record}
    (h : record.get c.field = other.get c.field) : c.evaluate record = c.evaluate other := by
  rw [Condition.evaluate, Condition.evaluate, h]

/-- Two texts are compared as they are. -/
theorem Condition.evaluate_text {field s t : String} {record : Record}
    (hfield : Text.hasChar '.' field = false) (hs : record.get field = .text s) :
    Condition.evaluate ⟨field, .eq, .text t, none⟩ record = .ok (.ofBool (s == t)) := by
  have hsame : (Value.text s).same (.text t) = (s == t) := by
    rw [Value.same] <;> simp [Value.sameScalar, Value.number?]
  have htest : Operator.eq.test (.text s) (.text t) = .ok (s == t) := by
    rw [← hsame]
    rfl
  rw [Condition.evaluate, hfield, hs, htest]
  rfl

namespace Filter

variable {record other : Record} {m : Condition → Outcome Filter}

theorem evaluateAll_congr {fs : List Filter} (h : ∀ f ∈ fs, f.evaluate record = f.evaluate other) :
    evaluateAll record fs = evaluateAll other fs := by
  induction fs with
  | nil => rfl
  | cons f fs ih =>
      obtain ⟨hf, hfs⟩ := List.forall_mem_cons.1 h
      rw [evaluateAll, evaluateAll, hf, ih hfs]

theorem evaluateAny_congr {fs : List Filter} (h : ∀ f ∈ fs, f.evaluate record = f.evaluate other) :
    evaluateAny record fs = evaluateAny other fs := by
  induction fs with
  | nil => rfl
  | cons f fs ih =>
      obtain ⟨hf, hfs⟩ := List.forall_mem_cons.1 h
      rw [evaluateAny, evaluateAny, hf, ih hfs]

/-- A filter looks at the fields of its conditions. -/
theorem evaluate_congr {f : Filter}
    (h : ∀ c ∈ f.conditions, record.get c.field = other.get c.field) :
    f.evaluate record = f.evaluate other := by
  induction f with
  | leaf c =>
      rw [evaluate, evaluate]
      exact Condition.evaluate_congr (h c (by simp [conditions]))
  | conj fs ih =>
      rw [evaluate, evaluate]
      exact evaluateAll_congr fun f hf =>
        ih f hf fun c hc => h c (mem_conditions_conj.2 ⟨f, hf, hc⟩)
  | disj fs ih =>
      rw [evaluate, evaluate]
      exact evaluateAny_congr fun f hf =>
        ih f hf fun c hc => h c (mem_conditions_disj.2 ⟨f, hf, hc⟩)
  | neg f ih =>
      rw [evaluate, evaluate, ih fun c hc => h c (by rwa [conditions])]
  | all | none => rfl

/-! ## Holding -/

/-- The filter definitely holds of the record. -/
def Holds (record : Record) (f : Filter) : Prop :=
  f.evaluate record = .ok .holds

/-- The conditions can be replaced, and what comes out definitely holds of the record. -/
def HoldsUnder (m : Condition → Outcome Filter) (record : Record) (f : Filter) : Prop :=
  ∃ g, f.mapConditions m = .ok g ∧ g.Holds record

/-- A record is admitted iff the filter holds of it. -/
theorem admits_eq_true {f : Filter} : f.admits record = .ok true ↔ f.Holds record := by
  simp only [admits, Holds, Outcome.bind_eq_ok, Outcome.pure_eq_ok, beq_iff_eq]
  constructor
  · rintro ⟨_, hf, rfl⟩
    exact hf
  · intro h
    exact ⟨_, h, rfl⟩

/-! ## Conjunctions -/

@[simp] theorem holds_all : (all).Holds record := rfl

@[simp] theorem not_holds_none : ¬ (none).Holds record := by
  simp [Holds, evaluate]

/-- Several filters together hold iff each of them does. -/
theorem evaluateAll_eq_holds {fs : List Filter} :
    evaluateAll record fs = .ok .holds ↔ ∀ f ∈ fs, f.Holds record := by
  induction fs with
  | nil => simp [evaluateAll]
  | cons f fs ih =>
      rw [List.forall_mem_cons, ← ih, evaluateAll, Outcome.bind_eq_ok]
      constructor
      · rintro ⟨t, hf, h⟩
        -- a part that fails ends the conjunction, and an unknown one keeps it from holding
        cases t with
        | fails => simp at h
        | holds | unknown =>
            simp only [Outcome.bind_eq_ok, Outcome.pure_eq_ok] at h
            obtain ⟨s, hs, ht⟩ := h
            obtain ⟨h₁, rfl⟩ := Truth.and_eq_holds.1 ht
            exact ⟨by rw [Holds, hf, h₁], hs⟩
      · rintro ⟨hf, hfs⟩
        refine ⟨.holds, hf, ?_⟩
        rw [hfs]
        rfl

theorem holds_conj {fs : List Filter} : (conj fs).Holds record ↔ ∀ f ∈ fs, f.Holds record := by
  rw [Holds, evaluate, evaluateAll_eq_holds]

/-- A folded conjunction holds iff each of its parts does. -/
theorem holds_conjoin {fs : List Filter} :
    (conjoin fs).Holds record ↔ ∀ f ∈ fs, f.Holds record :=
  conjoin_iff holds_all not_holds_none (fun _ => holds_conj) fs

/-! ## Conjunctions with replaced conditions -/

/-- Every filter of a list holds after a replacement iff the whole list can be replaced by filters
that hold. -/
theorem forall_holdsUnder {fs : List Filter} :
    (∀ f ∈ fs, f.HoldsUnder m record) ↔
      ∃ gs, mapConditionsOf m fs = .ok gs ∧ ∀ g ∈ gs, g.Holds record := by
  constructor
  · intro h
    induction fs with
    | nil => exact ⟨[], rfl, by simp⟩
    | cons f fs ih =>
        obtain ⟨⟨g, hg, hr⟩, hfs⟩ := List.forall_mem_cons.1 h
        obtain ⟨gs, hgs, hrs⟩ := ih hfs
        refine ⟨g :: gs, ?_, List.forall_mem_cons.2 ⟨hr, hrs⟩⟩
        rw [mapConditionsOf, hg, hgs]
        rfl
  · rintro ⟨gs, hgs, hrs⟩ f hf
    obtain ⟨g, hg, hm⟩ := exists_mapConditions_of_mem hgs hf
    exact ⟨g, hm, hrs g hg⟩

theorem holdsUnder_conj {fs : List Filter} :
    (conj fs).HoldsUnder m record ↔ ∀ f ∈ fs, f.HoldsUnder m record := by
  rw [forall_holdsUnder]
  simp only [HoldsUnder, mapConditions, Outcome.bind_eq_ok, Outcome.pure_eq_ok]
  constructor
  · rintro ⟨_, ⟨gs, hgs, rfl⟩, h⟩
    exact ⟨gs, hgs, holds_conjoin.1 h⟩
  · rintro ⟨gs, hgs, h⟩
    exact ⟨_, ⟨gs, hgs, rfl⟩, holds_conjoin.2 h⟩

theorem holdsUnder_all : (all).HoldsUnder m record :=
  ⟨.all, rfl, holds_all⟩

theorem not_holdsUnder_none : ¬ (none).HoldsUnder m record := by
  rintro ⟨g, hg, h⟩
  cases hg
  exact not_holds_none h

/-- A folded conjunction holds after a replacement iff each of its parts does. -/
theorem holdsUnder_conjoin {fs : List Filter} :
    (conjoin fs).HoldsUnder m record ↔ ∀ f ∈ fs, f.HoldsUnder m record :=
  conjoin_iff holdsUnder_all not_holdsUnder_none (fun _ => holdsUnder_conj) fs

end Filter

end Warden
