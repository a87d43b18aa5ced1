import Mathlib.Data.List.Basic
import Warden.Proofs.Filter.Folding

/-! # Filters in normal form

The folding constructors leave nothing to fold: what they build of filters in normal form is in
normal form again (`normal_conjoin`, `normal_disjoin`, `normal_negate`). A filter in normal form is
a constant or **`Filter.Compact`**: it has no constants, every connective in it has at least two
children, and none of them is of the connective's own kind. Folding the children of a compact filter
once more only puts the same filter together (`conjoin_eq_conj`, `disjoin_eq_disj`,
`negate_eq_neg`), so the filters in normal form are those that folding leaves as they are
(**`mapConditions_leaf_iff`**). -/

namespace Warden.Filter

/-- There is nothing to fold in the filter, nor in any filter below it, and no constant. -/
inductive Compact : Filter → Prop where
  /-- A condition has nothing below it. -/
  | leaf (condition : Condition) : Compact (.leaf condition)
  /-- Several filters that are no conjunctions. -/
  | conj {fs : List Filter} (hlength : 2 ≤ fs.length) (h : ∀ f ∈ fs, Compact f)
      (hkind : ∀ f ∈ fs, ∀ gs, f ≠ .conj gs) : Compact (.conj fs)
  /-- Several filters that are no disjunctions. -/
  | disj {fs : List Filter} (hlength : 2 ≤ fs.length) (h : ∀ f ∈ fs, Compact f)
      (hkind : ∀ f ∈ fs, ∀ gs, f ≠ .disj gs) : Compact (.disj fs)
  /-- A filter that is no negation. -/
  | neg {f : Filter} (h : Compact f) (hkind : ∀ g, f ≠ .neg g) : Compact (.neg f)

/-- The filter is in normal form: a constant, or without any. -/
def Normal (f : Filter) : Prop :=
  f = .all ∨ f = .none ∨ f.Compact

theorem Compact.normal {f : Filter} (h : f.Compact) : f.Normal :=
  .inr (.inr h)

theorem normal_all : Normal .all :=
  .inl rfl

theorem normal_none : Normal .none :=
  .inr (.inl rfl)

variable {f : Filter} {fs : List Filter}

/-! ## What is folded -/

theorem Compact.isNone_eq (h : f.Compact) : f.isNone = false := by
  cases h <;> rfl

theorem Compact.isAll_eq (h : f.Compact) : f.isAll = false := by
  cases h <;> rfl

/-- A compact filter that is no conjunction is its own conjunct. -/
theorem Compact.conjuncts_eq (h : f.Compact) (hkind : ∀ gs, f ≠ .conj gs) : f.conjuncts = [f] := by
  cases h with
  | conj => exact absurd rfl (hkind _)
  | leaf | disj | neg => rfl

/-- A compact filter that is no disjunction is its own disjunct. -/
theorem Compact.disjuncts_eq (h : f.Compact) (hkind : ∀ gs, f ≠ .disj gs) : f.disjuncts = [f] := by
  cases h with
  | disj => exact absurd rfl (hkind _)
  | leaf | conj | neg => rfl

/-- A compact filter that is no negation is negated as it is. -/
theorem Compact.negate_eq (h : f.Compact) (hkind : ∀ g, f ≠ .neg g) : negate f = .neg f := by
  cases h with
  | neg => exact absurd rfl (hkind _)
  | leaf | conj | disj => rfl

/-- The conjuncts of a compact filter are compact and no conjunctions. -/
theorem Compact.conjuncts (h : f.Compact) {g : Filter} (hg : g ∈ f.conjuncts) :
    g.Compact ∧ ∀ gs, g ≠ .conj gs := by
  by_cases hconj : ∃ fs, f = .conj fs
  · obtain ⟨fs, rfl⟩ := hconj
    cases h with
    | conj _ hfs hkind => exact ⟨hfs g hg, hkind g hg⟩
  · rw [h.conjuncts_eq (not_exists.1 hconj)] at hg
    obtain rfl := List.mem_singleton.1 hg
    exact ⟨h, not_exists.1 hconj⟩

/-- The disjuncts of a compact filter are compact and no disjunctions. -/
theorem Compact.disjuncts (h : f.Compact) {g : Filter} (hg : g ∈ f.disjuncts) :
    g.Compact ∧ ∀ gs, g ≠ .disj gs := by
  by_cases hdisj : ∃ fs, f = .disj fs
  · obtain ⟨fs, rfl⟩ := hdisj
    cases h with
    | disj _ hfs hkind => exact ⟨hfs g hg, hkind g hg⟩
  · rw [h.disjuncts_eq (not_exists.1 hdisj)] at hg
    obtain rfl := List.mem_singleton.1 hg
    exact ⟨h, not_exists.1 hdisj⟩

/-! ## Folding -/

theorem normal_ofConjuncts (h : ∀ f ∈ fs, f.Compact ∧ ∀ gs, f ≠ .conj gs) :
    (ofConjuncts fs).Normal := by
  match fs with
  | [] => exact normal_all
  | [f] => exact (h f List.mem_cons_self).1.normal
  | f :: g :: fs =>
      exact (Compact.conj (by simp) (fun e he => (h e he).1) fun e he => (h e he).2).normal

theorem normal_ofDisjuncts (h : ∀ f ∈ fs, f.Compact ∧ ∀ gs, f ≠ .disj gs) :
    (ofDisjuncts fs).Normal := by
  match fs with
  | [] => exact normal_none
  | [f] => exact (h f List.mem_cons_self).1.normal
  | f :: g :: fs =>
      exact (Compact.disj (by simp) (fun e he => (h e he).1) fun e he => (h e he).2).normal

/-- **Folding keeps filters in normal form.** -/
theorem normal_conjoin (h : ∀ f ∈ fs, f.Normal) : (conjoin fs).Normal := by
  unfold conjoin
  split
  case isTrue => exact normal_none
  case isFalse hnone =>
    refine normal_ofConjuncts fun g hg => ?_
    obtain ⟨f, hf, hgf⟩ := List.mem_flatMap.1 hg
    rcases h f hf with rfl | rfl | hcompact
    · cases hgf
    · exact absurd (List.any_eq_true.2 ⟨.none, hf, rfl⟩) hnone
    · exact hcompact.conjuncts hgf

theorem normal_disjoin (h : ∀ f ∈ fs, f.Normal) : (disjoin fs).Normal := by
  unfold disjoin
  split
  case isTrue => exact normal_all
  case isFalse hall =>
    refine normal_ofDisjuncts fun g hg => ?_
    obtain ⟨f, hf, hgf⟩ := List.mem_flatMap.1 hg
    rcases h f hf with rfl | rfl | hcompact
    · exact absurd (List.any_eq_true.2 ⟨.all, hf, rfl⟩) hall
    · cases hgf
    · exact hcompact.disjuncts hgf

theorem normal_negate (h : f.Normal) : (negate f).Normal := by
  rcases h with rfl | rfl | hcompact
  · exact normal_none
  · exact normal_all
  · by_cases hneg : ∃ g, f = .neg g
    · obtain ⟨g, rfl⟩ := hneg
      cases hcompact with
      | neg h _ => exact h.normal
    · rw [hcompact.negate_eq (not_exists.1 hneg)]
      exact (Compact.neg hcompact (not_exists.1 hneg)).normal

/-! ## Folding once more -/

theorem ofConjuncts_eq_conj (h : 2 ≤ fs.length) : ofConjuncts fs = .conj fs := by
  match fs, h with
  | _ :: _ :: _, _ => rfl

theorem ofDisjuncts_eq_disj (h : 2 ≤ fs.length) : ofDisjuncts fs = .disj fs := by
  match fs, h with
  | _ :: _ :: _, _ => rfl

/-- A compact conjunction is what its children fold to. -/
theorem conjoin_eq_conj (h : (conj fs).Compact) : conjoin fs = .conj fs := by
  obtain ⟨hlength, hfs, hkind⟩ : 2 ≤ fs.length ∧ (∀ f ∈ fs, f.Compact) ∧
      ∀ f ∈ fs, ∀ gs, f ≠ .conj gs := by
    cases h with
    | conj hlength hfs hkind => exact ⟨hlength, hfs, hkind⟩
  have hnone : ¬ fs.any isNone = true := by
    simp only [List.any_eq_true, not_exists, not_and, Bool.not_eq_true]
    exact fun f hf => (hfs f hf).isNone_eq
  have hconjuncts : fs.flatMap conjuncts = fs :=
    (List.flatMap_congr fun f hf => (hfs f hf).conjuncts_eq (hkind f hf)).trans
      (List.flatMap_singleton' fs)
  rw [conjoin, if_neg hnone, hconjuncts, ofConjuncts_eq_conj hlength]

/-- A compact disjunction is what its children fold to. -/
theorem disjoin_eq_disj (h : (disj fs).Compact) : disjoin fs = .disj fs := by
  obtain ⟨hlength, hfs, hkind⟩ : 2 ≤ fs.length ∧ (∀ f ∈ fs, f.Compact) ∧
      ∀ f ∈ fs, ∀ gs, f ≠ .disj gs := by
    cases h with
    | disj hlength hfs hkind => exact ⟨hlength, hfs, hkind⟩
  have hall : ¬ fs.any isAll = true := by
    simp only [List.any_eq_true, not_exists, not_and, Bool.not_eq_true]
    exact fun f hf => (hfs f hf).isAll_eq
  have hdisjuncts : fs.flatMap disjuncts = fs :=
    (List.flatMap_congr fun f hf => (hfs f hf).disjuncts_eq (hkind f hf)).trans
      (List.flatMap_singleton' fs)
  rw [disjoin, if_neg hall, hdisjuncts, ofDisjuncts_eq_disj hlength]

/-- A compact negation is what its child folds to. -/
theorem negate_eq_neg (h : (neg f).Compact) : negate f = .neg f := by
  cases h with
  | neg hf hkind => exact hf.negate_eq hkind

/-- A filter in normal form folds to itself. -/
theorem conjoin_singleton (h : f.Normal) : conjoin [f] = f := by
  rcases h with rfl | rfl | hcompact
  · rfl
  · rfl
  · cases hcompact with
    | conj hlength _ _ =>
        show ofConjuncts (conjuncts (.conj _) ++ []) = _
        rw [List.append_nil]
        exact ofConjuncts_eq_conj hlength
    | leaf | disj | neg => rfl

/-! ## Filters that folding leaves as they are -/

/-- Conditions that are kept leave a filter in normal form, and the same one if it was in normal
form before. -/
theorem normal_of_mapConditions_leaf {g : Filter}
    (h : f.mapConditions (fun c => .ok (.leaf c)) = .ok g) : g.Normal ∧ (f.Normal → g = f) := by
  have hnormal {fs gs : List Filter}
      (hgs : List.Forall₂ (fun f g => g.Normal ∧ (f.Normal → g = f)) fs gs) :
      ∀ g ∈ gs, g.Normal := by
    intro g hg
    obtain ⟨_, -, hg, -⟩ := exists_of_mem_right hgs hg
    exact hg
  have hsame {fs gs : List Filter}
      (hgs : List.Forall₂ (fun f g => g.Normal ∧ (f.Normal → g = f)) fs gs)
      (hfs : ∀ f ∈ fs, f.Compact) : gs = fs := by
    induction hgs with
    | nil => rfl
    | cons hfg _ ih =>
        obtain ⟨hf, hfs⟩ := List.forall_mem_cons.1 hfs
        rw [hfg.2 hf.normal, ih hfs]
  refine mapConditions_induction (R := fun f g => g.Normal ∧ (f.Normal → g = f)) ?_ ?_ ?_ ?_
    ⟨normal_all, fun _ => rfl⟩ ⟨normal_none, fun _ => rfl⟩ h
  · rintro c _ ⟨⟩
    exact ⟨(Compact.leaf c).normal, fun _ => rfl⟩
  · refine fun fs gs hgs => ⟨normal_conjoin (hnormal hgs), ?_⟩
    rintro (⟨⟨⟩⟩ | ⟨⟨⟩⟩ | hfs)
    cases hfs with
    | conj hlength hchildren hkind =>
        rw [hsame hgs hchildren, conjoin_eq_conj (.conj hlength hchildren hkind)]
  · refine fun fs gs hgs => ⟨normal_disjoin (hnormal hgs), ?_⟩
    rintro (⟨⟨⟩⟩ | ⟨⟨⟩⟩ | hfs)
    cases hfs with
    | disj hlength hchildren hkind =>
        rw [hsame hgs hchildren, disjoin_eq_disj (.disj hlength hchildren hkind)]
  · rintro f g ⟨hg, hfg⟩
    refine ⟨normal_negate hg, ?_⟩
    rintro (⟨⟨⟩⟩ | ⟨⟨⟩⟩ | hf)
    cases hf with
    | neg hchild hkind => rw [hfg hchild.normal, negate_eq_neg (.neg hchild hkind)]

/-- **A filter is in normal form iff folding it anew, with every condition kept, gives the same
filter.** -/
theorem mapConditions_leaf_iff : f.mapConditions (fun c => .ok (.leaf c)) = .ok f ↔ f.Normal := by
  constructor
  · exact fun h => (normal_of_mapConditions_leaf h).1
  · intro hf
    obtain ⟨g, hg⟩ := exists_mapConditions (fun c => ⟨.leaf c, rfl⟩) f
    rw [hg, (normal_of_mapConditions_leaf hg).2 hf]

end Warden.Filter
