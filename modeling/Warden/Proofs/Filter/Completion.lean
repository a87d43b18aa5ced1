import Warden.Proofs.Filter.Holding

/-! # Completions of what is unknown

A condition that cannot be decided on a record would be true or false if more were known. A
**completion** (`Filter.Completes`) gives a truth value to every occurrence of a condition in a
filter, the decided ones keeping theirs, and the filter then has an ordinary two-valued value
(**`Filter.holdsWith`**).

One truth value **allows** another (`Truth.Allows`) if it is the same or still unknown. All
connectives respect this, so what a filter evaluates to allows its value in every completion
(`evaluate_allows`): once the answer is definite, no completion changes it
(**`decided_in_every_completion`**).

A disjunction is evaluated just as the negation of the conjunction of its negated parts
(`evaluate_disj`), so proofs about values go by **`Filter.deMorganInduction`**, which asks for
conjunctions and negations only. -/

namespace Warden

/-! ## What a truth value allows -/

namespace Truth

variable {s t s' t' : Truth}

/-- The first value is the second one or still unknown. -/
def Allows (s t : Truth) : Prop :=
  s = .unknown ∨ s = t

theorem Allows.refl (t : Truth) : t.Allows t := .inr rfl

theorem unknown_allows (t : Truth) : unknown.Allows t := .inl rfl

/-- A decided value allows itself and nothing else. -/
theorem ofBool_allows {b : Bool} : (ofBool b).Allows t ↔ t = ofBool b := by
  cases b <;> simp [Allows, ofBool, eq_comm]

theorem ofBool_inj {a b : Bool} : ofBool a = ofBool b ↔ a = b := by
  cases a <;> cases b <;> simp [ofBool]

@[simp] theorem fails_and (t : Truth) : fails.and t = fails := by
  cases t <;> rfl

@[simp] theorem and_fails (t : Truth) : t.and fails = fails := by
  cases t <;> rfl

/-- On decided values a conjunction is the two-valued one. -/
theorem ofBool_and (a b : Bool) : ofBool (a && b) = (ofBool a).and (ofBool b) := by
  cases a <;> cases b <;> rfl

theorem ofBool_not (b : Bool) : ofBool (!b) = (ofBool b).not := by
  cases b <;> rfl

/-- A conjunction allows what its parts allow. -/
theorem Allows.and (h : s.Allows t) (h' : s'.Allows t') : (s.and s').Allows (t.and t') := by
  rcases h with rfl | rfl
  · -- an unknown part is outweighed only by one that fails, and then the whole fails
    rcases h' with rfl | rfl
    · exact unknown_allows _
    · cases s' with
      | fails => exact .inr (and_fails t).symm
      | holds | unknown => exact unknown_allows _
  · rcases h' with rfl | rfl
    · cases s with
      | fails => exact .inr (fails_and t').symm
      | holds | unknown => exact unknown_allows _
    · exact Allows.refl _

theorem Allows.not (h : s.Allows t) : s.not.Allows t.not := by
  rcases h with rfl | rfl
  · exact unknown_allows _
  · exact Allows.refl _

end Truth

namespace Filter

variable {record : Record} {f : Filter} {fs : List Filter}

/-! ## Conjunctions and negations -/

/-- A conjunction has the value of its first part together with the rest, which is looked at only if
the first part does not fail. -/
theorem evaluateAll_cons_eq_ok {t : Truth} :
    evaluateAll record (f :: fs) = .ok t ↔
      ∃ s s', f.evaluate record = .ok s ∧ t = s.and s' ∧
        (s = .fails ∨ evaluateAll record fs = .ok s') := by
  rw [evaluateAll, Outcome.bind_eq_ok]
  constructor
  · rintro ⟨s, hs, h⟩
    cases s with
    | fails =>
        obtain rfl := Outcome.pure_eq_ok.1 h
        exact ⟨.fails, .unknown, hs, rfl, .inl rfl⟩
    | holds | unknown =>
        simp only [Outcome.bind_eq_ok, Outcome.pure_eq_ok] at h
        obtain ⟨s', hs', rfl⟩ := h
        exact ⟨_, s', hs, rfl, .inr hs'⟩
  · rintro ⟨s, s', hs, rfl, h⟩
    refine ⟨s, hs, ?_⟩
    cases s with
    | fails =>
        rw [Truth.fails_and]
        rfl
    | holds | unknown =>
        rw [h.resolve_left (by decide)]
        rfl

/-- A negation has the negated value. -/
theorem evaluate_neg_eq_ok {t : Truth} :
    (neg f).evaluate record = .ok t ↔ ∃ s, f.evaluate record = .ok s ∧ s.not = t := by
  simp only [evaluate, Outcome.bind_eq_ok, Outcome.pure_eq_ok]

/-- **A disjunction is evaluated as the negation of a conjunction**, that of its negated parts. -/
theorem evaluate_disj (record : Record) (fs : List Filter) :
    (disj fs).evaluate record = (neg (conj (fs.map neg))).evaluate record := by
  simp only [evaluate]
  induction fs with
  | nil => rfl
  | cons f fs ih =>
      rw [evaluateAny, List.map_cons, evaluateAll, evaluate, ih]
      cases f.evaluate record with
      | error e => rfl
      | ok t =>
          -- both stop at a part that holds, and otherwise go on with the rest
          cases t <;> cases evaluateAll record (fs.map neg) with
          | error e => rfl
          | ok s => cases s <;> rfl

theorem conditionsOf_map_neg (fs : List Filter) : conditionsOf (fs.map neg) = conditionsOf fs := by
  simp only [conditionsOf_eq_flatMap, List.flatMap_map, conditions]

/-- Induction over filters by De Morgan's law: a disjunction takes over what is known of the negated
conjunction of its negated parts. -/
@[elab_as_elim]
theorem deMorganInduction {motive : Filter → Prop} (leaf : ∀ c, motive (.leaf c))
    (conj : ∀ fs, (∀ f ∈ fs, motive f) → motive (.conj fs))
    (neg : ∀ f, motive f → motive (.neg f))
    (disj : ∀ fs, motive (.neg (.conj (fs.map .neg))) → motive (.disj fs))
    (all : motive .all) (none : motive .none) (f : Filter) : motive f := by
  induction f with
  | leaf c => exact leaf c
  | conj fs ih => exact conj fs ih
  | disj fs ih =>
      refine disj fs (neg _ (conj _ fun g hg => ?_))
      obtain ⟨f, hf, rfl⟩ := List.mem_map.1 hg
      exact neg f (ih f hf)
  | neg f ih => exact neg f ih
  | all => exact all
  | none => exact none

/-! ## Two-valued values -/

mutual

/-- The two-valued value of a filter whose conditions, numbered from left to right from `n` on, have
the given values. -/
def holdsWith (value : Nat → Bool) (n : Nat) : Filter → Bool
  | .leaf _ => value n
  | .conj fs => allHoldWith value n fs
  | .disj fs => anyHoldsWith value n fs
  | .neg f => !holdsWith value n f
  | .all => true
  | .none => false

/-- All of the filters hold, their conditions numbered one filter after another. -/
def allHoldWith (value : Nat → Bool) (n : Nat) : List Filter → Bool
  | [] => true
  | f :: fs => holdsWith value n f && allHoldWith value (n + f.conditions.length) fs

/-- One of the filters holds, their conditions numbered one filter after another. -/
def anyHoldsWith (value : Nat → Bool) (n : Nat) : List Filter → Bool
  | [] => false
  | f :: fs => holdsWith value n f || anyHoldsWith value (n + f.conditions.length) fs

end

theorem holdsWith_disj (value : Nat → Bool) (n : Nat) (fs : List Filter) :
    (disj fs).holdsWith value n = (neg (conj (fs.map neg))).holdsWith value n := by
  simp only [holdsWith]
  induction fs generalizing n with
  | nil => rfl
  | cons f fs ih =>
      rw [anyHoldsWith, List.map_cons, allHoldWith, ih, holdsWith, conditions, Bool.not_and,
        Bool.not_not]

/-- The values complete what is known of the conditions, numbered from `n` on: a condition that is
decided on the record has its own value, every other one any value. -/
def Completes (record : Record) (conditions : List Condition) (n : Nat) (value : Nat → Bool) :
    Prop :=
  ∀ i c b, conditions[i]? = some c → c.evaluate record = .ok (.ofBool b) → value (n + i) = b

variable {value : Nat → Bool} {n : Nat}

/-- Values that complete some conditions and, from there on, others complete each of the two. -/
theorem Completes.append {cs ds : List Condition} (h : Completes record (cs ++ ds) n value) :
    Completes record cs n value ∧ Completes record ds (n + cs.length) value := by
  constructor
  · intro i c b hc
    have hi : i < cs.length := (List.getElem?_eq_some_iff.1 hc).1
    exact h i c b (by rwa [List.getElem?_append_left hi])
  · intro i c b hc
    rw [Nat.add_assoc]
    refine h (cs.length + i) c b ?_
    rwa [List.getElem?_append_right (Nat.le_add_right _ _), Nat.add_sub_cancel_left]

/-! ## Completions of filters -/

/-- If what each part evaluates to allows its completions, so does what the conjunction evaluates
to. -/
theorem evaluateAll_allows
    (ih : ∀ f ∈ fs, ∀ {n t}, Completes record f.conditions n value → f.evaluate record = .ok t →
      t.Allows (.ofBool (f.holdsWith value n)))
    {t : Truth} (hv : Completes record (conditionsOf fs) n value)
    (h : evaluateAll record fs = .ok t) : t.Allows (.ofBool (allHoldWith value n fs)) := by
  induction fs generalizing n t with
  | nil =>
      cases h
      exact Truth.Allows.refl _
  | cons f fs ihfs =>
      obtain ⟨hf, hfs⟩ := List.forall_mem_cons.1 ih
      obtain ⟨hvf, hvfs⟩ := hv.append
      obtain ⟨s, s', hs, rfl, hs'⟩ := evaluateAll_cons_eq_ok.1 h
      rw [allHoldWith, Truth.ofBool_and]
      rcases hs' with rfl | hs'
      · -- the rest was not looked at, and need not be
        rw [Truth.ofBool_allows (b := false) |>.1 (hf hvf hs)]
        exact Truth.Allows.refl _
      · exact (hf hvf hs).and (ihfs hfs hvfs hs')

/-- **What a filter evaluates to allows its value in every completion.** -/
theorem evaluate_allows {t : Truth} (hv : Completes record f.conditions n value)
    (h : f.evaluate record = .ok t) : t.Allows (.ofBool (f.holdsWith value n)) := by
  induction f using deMorganInduction generalizing n t with
  | leaf c =>
      rw [evaluate] at h
      cases t with
      | holds => exact .inr (congrArg Truth.ofBool (hv 0 c true rfl h)).symm
      | fails => exact .inr (congrArg Truth.ofBool (hv 0 c false rfl h)).symm
      | unknown => exact Truth.unknown_allows _
  | conj fs ih => exact evaluateAll_allows ih hv h
  | neg f ih =>
      obtain ⟨s, hs, rfl⟩ := evaluate_neg_eq_ok.1 h
      rw [holdsWith, Truth.ofBool_not]
      exact (ih hv hs).not
  | disj fs ih =>
      rw [evaluate_disj] at h
      rw [holdsWith_disj]
      refine ih ?_ h
      rwa [conditions, conditions, conditionsOf_map_neg]
  | all | none =>
      cases h
      exact Truth.Allows.refl _

/-! ## Decided filters -/

/-- A conjunction of decided parts is decided. -/
theorem evaluateAll_decided (h : ∀ f ∈ fs, ∃ b, f.evaluate record = .ok (.ofBool b)) :
    ∃ b, evaluateAll record fs = .ok (.ofBool b) := by
  induction fs with
  | nil => exact ⟨true, rfl⟩
  | cons f fs ih =>
      obtain ⟨⟨a, ha⟩, hfs⟩ := List.forall_mem_cons.1 h
      obtain ⟨b, hb⟩ := ih hfs
      exact ⟨a && b, evaluateAll_cons_eq_ok.2 ⟨_, _, ha, Truth.ofBool_and a b, .inr hb⟩⟩

/-- A filter is decided if all of its conditions are. -/
theorem evaluate_decided (h : ∀ c ∈ f.conditions, ∃ b, c.evaluate record = .ok (.ofBool b)) :
    ∃ b, f.evaluate record = .ok (.ofBool b) := by
  induction f using deMorganInduction with
  | leaf c => exact h c (by simp [conditions])
  | conj fs ih =>
      exact evaluateAll_decided fun f hf =>
        ih f hf fun c hc => h c (mem_conditions_conj.2 ⟨f, hf, hc⟩)
  | neg f ih =>
      obtain ⟨b, hb⟩ := ih h
      exact ⟨!b, evaluate_neg_eq_ok.2 ⟨_, hb, (Truth.ofBool_not b).symm⟩⟩
  | disj fs ih =>
      rw [evaluate_disj]
      refine ih ?_
      rwa [conditions, conditions, conditionsOf_map_neg]
  | all => exact ⟨true, rfl⟩
  | none => exact ⟨false, rfl⟩

end Filter

/-- **The unknown never decides.** Let every occurrence of a condition in a filter have a truth
value, those that are decided on the record their own. If the filter evaluates to a definite answer,
that is its two-valued value; in particular it holds if the record is admitted. Where every
condition is decided, the filter is, and evaluates to its two-valued value. -/
theorem decided_in_every_completion (f : Filter) (record : Record) (value : Nat → Bool)
    (hvalue : Filter.Completes record f.conditions 0 value) :
    (∀ b, f.evaluate record = .ok (.ofBool b) → f.holdsWith value 0 = b) ∧
    (f.admits record = .ok true → f.holdsWith value 0 = true) ∧
    ((∀ c ∈ f.conditions, ∃ b, c.evaluate record = .ok (.ofBool b)) →
      f.evaluate record = .ok (.ofBool (f.holdsWith value 0))) := by
  have hdecided (b : Bool) (h : f.evaluate record = .ok (.ofBool b)) : f.holdsWith value 0 = b :=
    Truth.ofBool_inj.1 (Truth.ofBool_allows.1 (Filter.evaluate_allows hvalue h))
  refine ⟨hdecided, fun h => hdecided true (Filter.admits_eq_true.1 h), fun h => ?_⟩
  obtain ⟨b, hb⟩ := Filter.evaluate_decided h
  rw [hb, hdecided b hb]

namespace Sample

/-- Whatever is behind the author, a post with a title is not both of an author called Ada and
without a title. -/
def notUntitledByAda : Filter :=
  .neg (.conj [.leaf ⟨"author.name", .eq, .text "Ada", none⟩,
    .disj [.leaf ⟨"title", .isNull, .bool true, none⟩, .none]])

end Sample

/-- The name of the author is not known from the post alone, and does not matter if there is a
title: the post is admitted, and the filter holds for authors called Ada, too. -/
theorem decided_in_every_completion_title :
    Sample.notUntitledByAda.admits [("title", .text "t")] = .ok true ∧
      Sample.notUntitledByAda.holdsWith (fun n => n == 0) 0 = true := by
  have hadmits : Sample.notUntitledByAda.admits [("title", .text "t")] = .ok true := by rfl
  refine ⟨hadmits, (decided_in_every_completion _ [("title", .text "t")] _ ?_).2.1 hadmits⟩
  intro i c b hc hb
  match i with
  | 0 =>
      -- a condition behind a relation is not decided
      cases hc
      cases b <;> cases hb
  | 1 =>
      cases hc
      cases b with
      | true => cases hb
      | false => rfl
  | n + 2 => cases hc

end Warden
