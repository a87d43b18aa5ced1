import Warden.Proofs.Filter.Completion
import Warden.Proofs.Filter.Normal
import Warden.Proofs.Query.Confinement

/-! # Pruned filters

What pruning takes out of a filter is replaced by something that every row matches, and where that
could narrow the result, under a negation, the whole negation is. So a filter that holds still holds
when it is pruned, whatever its conditions say, known or unknown (**`value_prune`**). Of its
conditions some are left, in their order (`sublist_conditions_prune`), and none that is hidden; of a
filter in normal form nothing more is taken out the second time (`prune_prune`).

**`Filter.value`** is the truth value of a filter whose conditions have given ones. It is what the
filter evaluates to where its conditions do (`evaluate_eq_value`). -/

namespace Warden

namespace Filter

variable {a : Allowlist} {f : Filter} {fs : List Filter} {v : Condition → Truth} {record : Record}

/-! ## Truth values of filters -/

mutual

/-- The truth value of a filter whose conditions have the given ones. -/
def value (v : Condition → Truth) : Filter → Truth
  | .leaf c => v c
  | .conj fs => allValue v fs
  | .disj fs => anyValue v fs
  | .neg f => (value v f).not
  | .all => .holds
  | .none => .fails

/-- The truth value of several filters together. -/
def allValue (v : Condition → Truth) : List Filter → Truth
  | [] => .holds
  | f :: fs => (value v f).and (allValue v fs)

/-- The truth value of one of several filters. -/
def anyValue (v : Condition → Truth) : List Filter → Truth
  | [] => .fails
  | f :: fs => (value v f).or (anyValue v fs)

end

theorem value_conj_eq_holds : (conj fs).value v = .holds ↔ ∀ f ∈ fs, f.value v = .holds := by
  rw [value]
  induction fs with
  | nil => simp [allValue]
  | cons f fs ih => rw [allValue, Truth.and_eq_holds, ih, List.forall_mem_cons]

theorem value_disj_eq_holds : (disj fs).value v = .holds ↔ ∃ f ∈ fs, f.value v = .holds := by
  rw [value]
  induction fs with
  | nil => simp [anyValue]
  | cons f fs ih => rw [anyValue, Truth.or_eq_holds, ih, List.exists_mem_cons_iff]

/-- A folded conjunction holds iff each of its parts does. -/
theorem value_conjoin_eq_holds : (conjoin fs).value v = .holds ↔ ∀ f ∈ fs, f.value v = .holds :=
  conjoin_iff (P := fun f => f.value v = .holds) rfl (by simp [value])
    (fun _ => value_conj_eq_holds) fs

/-- A folded disjunction holds iff one of its parts does. -/
theorem value_disjoin_eq_holds : (disjoin fs).value v = .holds ↔ ∃ f ∈ fs, f.value v = .holds :=
  disjoin_iff (P := fun f => f.value v = .holds) rfl (by simp [value])
    (fun _ => value_disj_eq_holds) fs

/-- A disjunction has the value of the negation of a conjunction, that of its negated parts. -/
theorem value_disj (v : Condition → Truth) (fs : List Filter) :
    (disj fs).value v = (neg (conj (fs.map neg))).value v := by
  simp only [value]
  induction fs with
  | nil => rfl
  | cons f fs ih =>
      rw [anyValue, ih, List.map_cons, allValue, value, Truth.not_and, Truth.not_not]

/-- Where its conditions can be evaluated, a filter evaluates to the truth value that they give
it. -/
theorem evaluate_eq_value (h : ∀ c ∈ f.conditions, c.evaluate record = .ok (v c)) :
    f.evaluate record = .ok (f.value v) := by
  induction f using deMorganInduction with
  | leaf c => exact h c (List.mem_singleton_self c)
  | conj fs ih =>
      have hfs : ∀ f ∈ fs, f.evaluate record = .ok (f.value v) := fun f hf =>
        ih f hf fun c hc => h c (mem_conditions_conj.2 ⟨f, hf, hc⟩)
      rw [evaluate, value]
      clear ih h
      induction fs with
      | nil => rfl
      | cons f fs ih =>
          obtain ⟨hf, hfs⟩ := List.forall_mem_cons.1 hfs
          exact evaluateAll_cons_eq_ok.2 ⟨_, _, hf, rfl, .inr (ih hfs)⟩
  | neg f ih => exact evaluate_neg_eq_ok.2 ⟨_, ih h, rfl⟩
  | disj fs ih =>
      rw [evaluate_disj, value_disj]
      refine ih ?_
      rwa [conditions, conditions, conditionsOf_map_neg]
  | all | none => rfl

/-! ## What is left of the conditions -/

/-- Joining conjuncts keeps their conditions and the order of them. -/
theorem conditions_ofConjuncts (fs : List Filter) :
    (ofConjuncts fs).conditions = conditionsOf fs := by
  match fs with
  | [] => rfl
  | [f] => simp [ofConjuncts, conditionsOf]
  | f :: g :: fs => rfl

/-- Joining disjuncts keeps their conditions and the order of them. -/
theorem conditions_ofDisjuncts (fs : List Filter) :
    (ofDisjuncts fs).conditions = conditionsOf fs := by
  match fs with
  | [] => rfl
  | [f] => simp [ofDisjuncts, conditionsOf]
  | f :: g :: fs => rfl

/-- What a function of filters that keeps conditions makes of a list keeps those of the list. -/
theorem conditionsOf_flatMap {m : Filter → List Filter}
    (h : ∀ f, conditionsOf (m f) = f.conditions) (fs : List Filter) :
    conditionsOf (fs.flatMap m) = conditionsOf fs := by
  induction fs with
  | nil => rfl
  | cons f fs ih =>
      rw [List.flatMap_cons, conditionsOf, conditionsOf_eq_flatMap, List.flatMap_append,
        ← conditionsOf_eq_flatMap, ← conditionsOf_eq_flatMap, h, ih]

theorem conditionsOf_conjuncts (f : Filter) : conditionsOf f.conjuncts = f.conditions := by
  cases f <;> simp [conjuncts, conditionsOf, conditions]

theorem conditionsOf_disjuncts (f : Filter) : conditionsOf f.disjuncts = f.conditions := by
  cases f <;> simp [disjuncts, conditionsOf, conditions]

/-- A folded conjunction has the conditions of its parts in their order, or none. -/
theorem sublist_conditions_conjoin (fs : List Filter) :
    (conjoin fs).conditions.Sublist (conditionsOf fs) := by
  rw [conjoin]
  split
  · exact List.nil_sublist _
  · rw [conditions_ofConjuncts, conditionsOf_flatMap conditionsOf_conjuncts]

/-- A folded disjunction has the conditions of its parts in their order, or none. -/
theorem sublist_conditions_disjoin (fs : List Filter) :
    (disjoin fs).conditions.Sublist (conditionsOf fs) := by
  rw [disjoin]
  split
  · exact List.nil_sublist _
  · rw [conditions_ofDisjuncts, conditionsOf_flatMap conditionsOf_disjuncts]

/-- If each filter keeps some of its conditions, so do all together. -/
theorem sublist_conditionsOf_map {m : Filter → Filter}
    (h : ∀ f ∈ fs, (m f).conditions.Sublist f.conditions) :
    (conditionsOf (fs.map m)).Sublist (conditionsOf fs) := by
  induction fs with
  | nil => exact List.Sublist.refl _
  | cons f fs ih =>
      obtain ⟨hf, hfs⟩ := List.forall_mem_cons.1 h
      rw [List.map_cons, conditionsOf, conditionsOf]
      exact hf.append (ih hfs)

/-- **Pruning makes no condition** and keeps the order of those that are left. -/
theorem sublist_conditions_prune (a : Allowlist) (f : Filter) :
    (f.prune a).conditions.Sublist f.conditions := by
  induction f with
  | leaf c =>
      rw [prune]
      split
      · exact List.Sublist.refl _
      · exact List.nil_sublist _
  | conj fs ih =>
      rw [prune]
      split
      · exact List.Sublist.refl _
      · rw [pruneAll_eq_map]
        exact (sublist_conditions_conjoin _).trans (sublist_conditionsOf_map ih)
  | disj fs ih =>
      rw [prune]
      split
      · exact List.Sublist.refl _
      · rw [pruneAll_eq_map]
        exact (sublist_conditions_disjoin _).trans (sublist_conditionsOf_map ih)
  | neg f _ =>
      rw [prune]
      split
      · exact List.Sublist.refl _
      · exact List.nil_sublist _
  | all | none => exact List.Sublist.refl _

/-! ## What a pruned filter says -/

/-- **A filter that holds still holds when it is pruned**, whatever truth values its conditions
have. -/
theorem value_prune (a : Allowlist) (h : f.value v = .holds) : (f.prune a).value v = .holds := by
  induction f with
  | leaf c =>
      rw [prune]
      split
      · exact h
      · rfl
  | conj fs ih =>
      rw [prune]
      split
      · exact h
      · rw [pruneAll_eq_map, value_conjoin_eq_holds, List.forall_mem_map]
        exact fun f hf => ih f hf (value_conj_eq_holds.1 h f hf)
  | disj fs ih =>
      rw [prune]
      split
      · exact h
      · obtain ⟨f, hf, hholds⟩ := value_disj_eq_holds.1 h
        rw [pruneAll_eq_map, value_disjoin_eq_holds]
        exact ⟨_, List.mem_map_of_mem hf, ih f hf hholds⟩
  | neg f _ =>
      -- what is below a negation would have to be narrowed, so it stays as it is or goes with it
      rw [prune]
      split
      · exact h
      · rfl
  | all => rfl
  | none => cases h

/-! ## Pruning twice -/

/-- Pruning keeps filters in normal form. -/
theorem normal_prune (a : Allowlist) (h : f.Normal) : (f.prune a).Normal := by
  have hcompact (f : Filter) (h : f.Compact) : (f.prune a).Normal := by
    induction h with
    | leaf c =>
        rw [prune]
        split
        · exact (Compact.leaf c).normal
        · exact normal_all
    | conj hlength hfs hkind ih =>
        rw [prune]
        split
        · exact (Compact.conj hlength hfs hkind).normal
        · rw [pruneAll_eq_map]
          exact normal_conjoin (List.forall_mem_map.2 ih)
    | disj hlength hfs hkind ih =>
        rw [prune]
        split
        · exact (Compact.disj hlength hfs hkind).normal
        · rw [pruneAll_eq_map]
          exact normal_disjoin (List.forall_mem_map.2 ih)
    | neg hf hkind _ =>
        rw [prune]
        split
        · exact (Compact.neg hf hkind).normal
        · exact normal_all
  rcases h with rfl | rfl | h
  · exact normal_all
  · exact normal_none
  · exact hcompact f h

/-- From a filter in normal form without hidden conditions nothing is taken out. -/
theorem prune_eq_self (h : f.Normal) (hf : ∀ c ∈ f.conditions, a.allowsPath c.field = true) :
    f.prune a = f := by
  have hcompact (f : Filter) (h : f.Compact)
      (hf : ∀ c ∈ f.conditions, a.allowsPath c.field = true) : f.prune a = f := by
    induction h with
    | leaf c => rw [prune, if_pos (hf c (List.mem_singleton_self c))]
    | @conj fs hlength hfs hkind ih =>
        have hsame : fs.map (prune a) = fs := by
          rw [List.map_congr_left fun g hg =>
            ih g hg fun c hc => hf c (mem_conditions_conj.2 ⟨g, hg, hc⟩), List.map_id']
        rw [prune, pruneAll_eq_map, hsame, conjoin_eq_conj (.conj hlength hfs hkind), ite_self]
    | @disj fs hlength hfs hkind ih =>
        have hsame : fs.map (prune a) = fs := by
          rw [List.map_congr_left fun g hg =>
            ih g hg fun c hc => hf c (mem_conditions_disj.2 ⟨g, hg, hc⟩), List.map_id']
        rw [prune, pruneAll_eq_map, hsame, disjoin_eq_disj (.disj hlength hfs hkind), ite_self]
    | neg _ _ _ =>
        rw [prune]
        exact if_pos (List.all_eq_true.2 hf)
  rcases h with rfl | rfl | h
  · rfl
  · rfl
  · exact hcompact f h hf

/-- A pruned filter in normal form is not changed by pruning it again. -/
theorem prune_prune (a : Allowlist) (h : f.Normal) : (f.prune a).prune a = f.prune a :=
  prune_eq_self (normal_prune a h) fun _ hc => allowsPath_of_mem_prune hc

end Filter

/-- **Pruning removes all hidden conditions and never narrows the result.** What is left are some of
the filter's conditions, in their order, and all of them are allowed. Whatever truth values the
conditions have, a filter that holds still holds when it is pruned. Pruning a filter in normal form
a second time changes nothing. -/
theorem prune_widens_to_visible (f : Filter) (a : Allowlist) :
    ((f.prune a).conditions.Sublist f.conditions ∧
      ∀ c ∈ (f.prune a).conditions, a.allowsPath c.field = true) ∧
    (∀ v : Condition → Truth, f.value v = .holds → (f.prune a).value v = .holds) ∧
    (f.Normal → (f.prune a).prune a = f.prune a) :=
  ⟨⟨Filter.sublist_conditions_prune a f, fun _ hc => Filter.allowsPath_of_mem_prune hc⟩,
    fun _ h => Filter.value_prune a h, Filter.prune_prune a⟩

namespace Sample

/-- Posts with a title, of one of two kinds of authors, that are not without an author and with
another title. -/
def partlyHidden : Filter :=
  .conj [.leaf ⟨"title", .eq, .text "a", none⟩,
    .disj [ownPost, .leaf ⟨"author.name", .eq, .text "Ada", none⟩],
    .neg (.conj [.leaf ⟨"author_id", .isNull, .bool true, none⟩,
      .leaf ⟨"title", .eq, .text "b", none⟩])]

theorem normal_partlyHidden : partlyHidden.Normal := by
  refine (Filter.Compact.conj (by decide) ?_ ?_).normal
  · refine List.forall_mem_cons.2 ⟨.leaf _, List.forall_mem_cons.2 ⟨?_, ?_⟩⟩
    · exact .disj (by decide) (by simp [ownPost, Filter.Compact.leaf]) (by simp [ownPost])
    · exact List.forall_mem_singleton.2
        (.neg (.conj (by decide) (by simp [Filter.Compact.leaf]) (by simp)) (by simp))
  · simp

/-- The author of a post is not known, and its title is not the second one. -/
def titleKnown (c : Condition) : Truth :=
  if c.field = "author_id" then .unknown
  else if c.value.text? = some "b" then .fails
  else .holds

/-- What editors may see of the posts. -/
def visiblePart : Filter :=
  partlyHidden.prune titlesOnly.allowlist

end Sample

/-- The filter on posts and their authors holds of a post with a known title; where authors are
hidden, none of the conditions on them is left, the rest holds, and there is nothing else to take
out. -/
theorem prune_widens_to_visible_titles :
    Sample.partlyHidden.Normal ∧ Sample.partlyHidden.value Sample.titleKnown = .holds ∧
    (Sample.visiblePart.conditions.Sublist Sample.partlyHidden.conditions ∧
      ∀ c ∈ Sample.visiblePart.conditions,
        Sample.titlesOnly.allowlist.allowsPath c.field = true) ∧
    Sample.visiblePart.value Sample.titleKnown = .holds ∧
    Sample.visiblePart.prune Sample.titlesOnly.allowlist = Sample.visiblePart := by
  have hholds : Sample.partlyHidden.value Sample.titleKnown = .holds := by decide
  obtain ⟨hvisible, hwidens, hagain⟩ :=
    prune_widens_to_visible Sample.partlyHidden Sample.titlesOnly.allowlist
  exact ⟨Sample.normal_partlyHidden, hholds, hvisible, hwidens _ hholds,
    hagain Sample.normal_partlyHidden⟩

end Warden
