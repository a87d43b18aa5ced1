import Mathlib.Data.List.Forall2
import Warden.Filter.Basic
import Warden.Proofs.Outcome

/-! # Conditions of folded filters

Folding, negating and replacing conditions rebuild a tree. None of them invents a condition: every
condition of the result is one of what was put in (`mem_conditions_conjoin`,
`mem_conditions_disjoin`, `conditions_negate`) or of a replacement
(`mem_conditions_of_mapConditions`). A property of filters that takes a conjunction apart also takes
a folded one apart (`conjoin_iff`). Trees have lists of children, so proofs go by
**`Filter.childInduction`**, which gives the statement for every child, and proofs about replaced
conditions by **`Filter.mapConditions_induction`**, which asks what folding makes of related
parts. -/

namespace Warden.Filter

/-- Induction over filters: a connective may use the statement for each of its children. -/
@[elab_as_elim, induction_eliminator]
theorem childInduction {motive : Filter → Prop} (leaf : ∀ c, motive (.leaf c))
    (conj : ∀ fs, (∀ f ∈ fs, motive f) → motive (.conj fs))
    (disj : ∀ fs, (∀ f ∈ fs, motive f) → motive (.disj fs))
    (neg : ∀ f, motive f → motive (.neg f)) (all : motive .all) (none : motive .none) :
    ∀ f, motive f
  | .leaf c => leaf c
  | .conj fs => conj fs fun f _ => childInduction leaf conj disj neg all none f
  | .disj fs => disj fs fun f _ => childInduction leaf conj disj neg all none f
  | .neg f => neg f (childInduction leaf conj disj neg all none f)
  | .all => all
  | .none => none

/-! ## Lists of filters -/

/-- The conditions of several filters are those of one after another. -/
theorem conditionsOf_eq_flatMap (fs : List Filter) :
    conditionsOf fs = fs.flatMap conditions := by
  induction fs with
  | nil => rfl
  | cons f fs ih => rw [conditionsOf, List.flatMap_cons, ih]

theorem mem_conditionsOf {fs : List Filter} {c : Condition} :
    c ∈ conditionsOf fs ↔ ∃ f ∈ fs, c ∈ f.conditions := by
  rw [conditionsOf_eq_flatMap, List.mem_flatMap]

theorem mem_conditions_conj {fs : List Filter} {c : Condition} :
    c ∈ (conj fs).conditions ↔ ∃ f ∈ fs, c ∈ f.conditions := by
  rw [conditions, mem_conditionsOf]

theorem mem_conditions_disj {fs : List Filter} {c : Condition} :
    c ∈ (disj fs).conditions ↔ ∃ f ∈ fs, c ∈ f.conditions := by
  rw [conditions, mem_conditionsOf]

/-! ## Folding constructors -/

/-- Joining conjuncts keeps exactly their conditions. -/
theorem mem_conditions_ofConjuncts {fs : List Filter} {c : Condition} :
    c ∈ (ofConjuncts fs).conditions ↔ ∃ f ∈ fs, c ∈ f.conditions := by
  match fs with
  | [] => simp [ofConjuncts, conditions]
  | [f] => simp [ofConjuncts]
  | f :: g :: fs => exact mem_conditions_conj

/-- Joining disjuncts keeps exactly their conditions. -/
theorem mem_conditions_ofDisjuncts {fs : List Filter} {c : Condition} :
    c ∈ (ofDisjuncts fs).conditions ↔ ∃ f ∈ fs, c ∈ f.conditions := by
  match fs with
  | [] => simp [ofDisjuncts, conditions]
  | [f] => simp [ofDisjuncts]
  | f :: g :: fs => exact mem_conditions_disj

/-- The conjuncts of a filter hold its conditions. -/
theorem mem_conditions_of_conjuncts {f g : Filter} {c : Condition} (hg : g ∈ f.conjuncts)
    (hc : c ∈ g.conditions) : c ∈ f.conditions := by
  cases f with
  | conj fs => exact mem_conditions_conj.2 ⟨g, hg, hc⟩
  | all => cases hg
  | leaf | disj | neg | none =>
      obtain rfl := List.mem_singleton.1 hg
      exact hc

/-- The disjuncts of a filter hold its conditions. -/
theorem mem_conditions_of_disjuncts {f g : Filter} {c : Condition} (hg : g ∈ f.disjuncts)
    (hc : c ∈ g.conditions) : c ∈ f.conditions := by
  cases f with
  | disj fs => exact mem_conditions_disj.2 ⟨g, hg, hc⟩
  | none => cases hg
  | leaf | conj | neg | all =>
      obtain rfl := List.mem_singleton.1 hg
      exact hc

/-- A conjunction has no condition that none of its parts has. -/
theorem mem_conditions_conjoin {fs : List Filter} {c : Condition}
    (hc : c ∈ (conjoin fs).conditions) : ∃ f ∈ fs, c ∈ f.conditions := by
  rw [conjoin] at hc
  split at hc
  · simp [conditions] at hc
  · obtain ⟨g, hg, hcg⟩ := mem_conditions_ofConjuncts.1 hc
    obtain ⟨f, hf, hgf⟩ := List.mem_flatMap.1 hg
    exact ⟨f, hf, mem_conditions_of_conjuncts hgf hcg⟩

/-- A disjunction has no condition that none of its parts has. -/
theorem mem_conditions_disjoin {fs : List Filter} {c : Condition}
    (hc : c ∈ (disjoin fs).conditions) : ∃ f ∈ fs, c ∈ f.conditions := by
  rw [disjoin] at hc
  split at hc
  · simp [conditions] at hc
  · obtain ⟨g, hg, hcg⟩ := mem_conditions_ofDisjuncts.1 hc
    obtain ⟨f, hf, hgf⟩ := List.mem_flatMap.1 hg
    exact ⟨f, hf, mem_conditions_of_disjuncts hgf hcg⟩

/-- A property that every conjunction has iff all of its children have it is not changed by folding:
a folded conjunction has it iff all of its parts have it. -/
theorem conjoin_iff {P : Filter → Prop} (hall : P all) (hnone : ¬ P none)
    (hconj : ∀ fs, P (conj fs) ↔ ∀ f ∈ fs, P f) (fs : List Filter) :
    P (conjoin fs) ↔ ∀ f ∈ fs, P f := by
  have hconjuncts (f : Filter) : (∀ g ∈ f.conjuncts, P g) ↔ P f := by
    cases f with
    | conj fs => exact (hconj fs).symm
    | all => simpa [conjuncts] using hall
    | leaf | disj | neg | none => simp [conjuncts]
  rw [conjoin]
  split
  case isTrue h =>
    -- a part that matches nothing makes both sides fail
    obtain ⟨f, hf, hn⟩ := List.any_eq_true.1 h
    have hfn : f = none := by cases f <;> simp_all [isNone]
    exact iff_of_false hnone fun hfs => hnone (hfn ▸ hfs f hf)
  case isFalse h =>
    have hof (gs : List Filter) : P (ofConjuncts gs) ↔ ∀ g ∈ gs, P g := by
      match gs with
      | [] => simpa [ofConjuncts] using hall
      | [g] => simp [ofConjuncts]
      | g :: g' :: gs => exact hconj _
    rw [hof, List.forall_mem_flatMap]
    exact forall₂_congr fun f _ => hconjuncts f

/-- A property that a disjunction has iff one of its children has it is not changed by folding: a
folded disjunction has it iff one of its parts has it. -/
theorem disjoin_iff {P : Filter → Prop} (hall : P all) (hnone : ¬ P none)
    (hdisj : ∀ fs, P (disj fs) ↔ ∃ f ∈ fs, P f) (fs : List Filter) :
    P (disjoin fs) ↔ ∃ f ∈ fs, P f := by
  have hdisjuncts (f : Filter) : (∃ g ∈ f.disjuncts, P g) ↔ P f := by
    cases f with
    | disj fs => exact (hdisj fs).symm
    | none => simpa [disjuncts] using hnone
    | leaf | conj | neg | all => simp [disjuncts]
  rw [disjoin]
  split
  case isTrue h =>
    -- a part that matches everything makes both sides hold
    obtain ⟨f, hf, ha⟩ := List.any_eq_true.1 h
    have hfa : f = all := by cases f <;> simp_all [isAll]
    exact iff_of_true hall ⟨f, hf, hfa ▸ hall⟩
  case isFalse h =>
    have hof (gs : List Filter) : P (ofDisjuncts gs) ↔ ∃ g ∈ gs, P g := by
      match gs with
      | [] => simpa [ofDisjuncts] using hnone
      | [g] => simp [ofDisjuncts]
      | g :: g' :: gs => exact hdisj _
    rw [hof]
    constructor
    · rintro ⟨g, hg, hP⟩
      obtain ⟨f, hf, hgf⟩ := List.mem_flatMap.1 hg
      exact ⟨f, hf, (hdisjuncts f).1 ⟨g, hgf, hP⟩⟩
    · rintro ⟨f, hf, hP⟩
      obtain ⟨g, hgf, hg⟩ := (hdisjuncts f).2 hP
      exact ⟨g, List.mem_flatMap.2 ⟨f, hf, hgf⟩, hg⟩

/-- A negation has the conditions of what it negates. -/
@[simp] theorem conditions_negate (f : Filter) : (negate f).conditions = f.conditions := by
  cases f <;> simp [negate, conditions]

/-! ## Replacing conditions -/

/-- Every filter of a list is replaced by one of the new list. -/
theorem exists_mapConditions_of_mem {m : Condition → Outcome Filter} {fs gs : List Filter}
    (h : mapConditionsOf m fs = .ok gs) {f : Filter} (hf : f ∈ fs) :
    ∃ g ∈ gs, f.mapConditions m = .ok g := by
  induction fs generalizing gs with
  | nil => cases hf
  | cons e fs ih =>
      simp only [mapConditionsOf, Outcome.bind_eq_ok, Outcome.pure_eq_ok] at h
      obtain ⟨g, hg, gs, hgs, rfl⟩ := h
      rcases List.mem_cons.1 hf with rfl | hf
      · exact ⟨g, List.mem_cons_self, hg⟩
      · obtain ⟨g', hg', he⟩ := ih hgs hf
        exact ⟨g', List.mem_cons_of_mem _ hg', he⟩

/-- Filters that are each related to what replaces them are related to it one by one. -/
theorem forall₂_of_mapConditionsOf {m : Condition → Outcome Filter} {R : Filter → Filter → Prop}
    {fs gs : List Filter} (hfs : ∀ f ∈ fs, ∀ {g}, f.mapConditions m = .ok g → R f g)
    (h : mapConditionsOf m fs = .ok gs) : List.Forall₂ R fs gs := by
  induction fs generalizing gs with
  | nil =>
      cases h
      exact .nil
  | cons f fs ih =>
      simp only [mapConditionsOf, Outcome.bind_eq_ok, Outcome.pure_eq_ok] at h
      obtain ⟨g, hg, gs, hgs, rfl⟩ := h
      obtain ⟨hf, hfs⟩ := List.forall_mem_cons.1 hfs
      exact .cons (hf hg) (ih hfs hgs)

/-- A relation that holds between conditions and their replacements, and that folding keeps, holds
between a filter and what comes out when its conditions are replaced. -/
theorem mapConditions_induction {m : Condition → Outcome Filter} {R : Filter → Filter → Prop}
    (leaf : ∀ c g, m c = .ok g → R (.leaf c) g)
    (conj : ∀ fs gs, List.Forall₂ R fs gs → R (.conj fs) (conjoin gs))
    (disj : ∀ fs gs, List.Forall₂ R fs gs → R (.disj fs) (disjoin gs))
    (neg : ∀ f g, R f g → R (.neg f) (negate g)) (all : R .all .all) (none : R .none .none)
    {f g : Filter} (h : f.mapConditions m = .ok g) : R f g := by
  induction f generalizing g with
  | leaf c => exact leaf c g h
  | conj fs ih =>
      simp only [mapConditions, Outcome.bind_eq_ok, Outcome.pure_eq_ok] at h
      obtain ⟨gs, hgs, rfl⟩ := h
      exact conj fs gs (forall₂_of_mapConditionsOf ih hgs)
  | disj fs ih =>
      simp only [mapConditions, Outcome.bind_eq_ok, Outcome.pure_eq_ok] at h
      obtain ⟨gs, hgs, rfl⟩ := h
      exact disj fs gs (forall₂_of_mapConditionsOf ih hgs)
  | neg f ih =>
      simp only [mapConditions, Outcome.bind_eq_ok, Outcome.pure_eq_ok] at h
      obtain ⟨g, hg, rfl⟩ := h
      exact neg f g (ih hg)
  | all =>
      cases h
      exact all
  | none =>
      cases h
      exact none

/-- Filters of which each can be replaced can be replaced together. -/
theorem exists_mapConditionsOf {m : Condition → Outcome Filter} {fs : List Filter}
    (h : ∀ f ∈ fs, ∃ g, f.mapConditions m = .ok g) : ∃ gs, mapConditionsOf m fs = .ok gs := by
  induction fs with
  | nil => exact ⟨[], rfl⟩
  | cons f fs ih =>
      obtain ⟨⟨g, hg⟩, hfs⟩ := List.forall_mem_cons.1 h
      obtain ⟨gs, hgs⟩ := ih hfs
      refine ⟨g :: gs, ?_⟩
      rw [mapConditionsOf, hg, hgs]
      rfl

/-- If every condition has a replacement, the filter has one. -/
theorem exists_mapConditions {m : Condition → Outcome Filter} (h : ∀ c, ∃ g, m c = .ok g)
    (f : Filter) : ∃ g, f.mapConditions m = .ok g := by
  induction f with
  | leaf c => exact h c
  | conj fs ih =>
      obtain ⟨gs, hgs⟩ := exists_mapConditionsOf ih
      exact ⟨conjoin gs, Outcome.bind_eq_ok.2 ⟨gs, hgs, rfl⟩⟩
  | disj fs ih =>
      obtain ⟨gs, hgs⟩ := exists_mapConditionsOf ih
      exact ⟨disjoin gs, Outcome.bind_eq_ok.2 ⟨gs, hgs, rfl⟩⟩
  | neg f ih =>
      obtain ⟨g, hg⟩ := ih
      exact ⟨negate g, Outcome.bind_eq_ok.2 ⟨g, hg, rfl⟩⟩
  | all => exact ⟨.all, rfl⟩
  | none => exact ⟨.none, rfl⟩

/-- Whatever stands on the right of related lists is related to something on the left. -/
theorem exists_of_mem_right {α β : Type} {R : α → β → Prop} {as : List α} {bs : List β}
    (h : List.Forall₂ R as bs) {b : β} (hb : b ∈ bs) : ∃ a ∈ as, R a b := by
  induction h with
  | nil => cases hb
  | cons hab _ ih =>
      rcases List.mem_cons.1 hb with rfl | hb
      · exact ⟨_, List.mem_cons_self, hab⟩
      · obtain ⟨a, ha, hR⟩ := ih hb
        exact ⟨a, List.mem_cons_of_mem _ ha, hR⟩

/-- Every condition after a replacement is one of what a condition was replaced by. -/
theorem mem_conditions_of_mapConditions {m : Condition → Outcome Filter} {f g : Filter}
    (h : f.mapConditions m = .ok g) {c : Condition} (hc : c ∈ g.conditions) :
    ∃ b ∈ f.conditions, ∃ e, m b = .ok e ∧ c ∈ e.conditions := by
  revert hc
  refine mapConditions_induction (R := fun f g => c ∈ g.conditions →
    ∃ b ∈ f.conditions, ∃ e, m b = .ok e ∧ c ∈ e.conditions) ?_ ?_ ?_ ?_ nofun nofun h
  · exact fun b g hg hc => ⟨b, List.mem_singleton_self b, g, hg, hc⟩
  · intro fs gs hgs hc
    obtain ⟨g, hg, hcg⟩ := mem_conditions_conjoin hc
    obtain ⟨f, hf, hfg⟩ := exists_of_mem_right hgs hg
    obtain ⟨b, hb, he⟩ := hfg hcg
    exact ⟨b, mem_conditions_conj.2 ⟨f, hf, hb⟩, he⟩
  · intro fs gs hgs hc
    obtain ⟨g, hg, hcg⟩ := mem_conditions_disjoin hc
    obtain ⟨f, hf, hfg⟩ := exists_of_mem_right hgs hg
    obtain ⟨b, hb, he⟩ := hfg hcg
    exact ⟨b, mem_conditions_disj.2 ⟨f, hf, hb⟩, he⟩
  · intro f g hfg hc
    rw [conditions_negate] at hc
    exact hfg hc

end Warden.Filter
