import Mathlib.Data.List.ReduceOption
import Warden.Proofs.Filter.Pruning

/-! # What folded filters mean

Every filter is put together by the folding constructors, which take trees apart, leave parts out
and stop early. None of this changes what a filter says of a record. The evaluation of a conjunction
is a product (**`andThen`**): it may be taken apart anywhere, and the constant that every record
matches is its unit. So a folded conjunction is evaluated as the conjunction of its parts is
(**`evaluate_conjoin`**), with the same answer and the same way of breaking off, unless one of the
parts is the constant that no record matches. A disjunction is evaluated as the negation of the
conjunction of its negated parts, and therefore folded as one (**`evaluate_disjoin`**).

So folding **upholds** every answer of the unfolded filter (**`Filter.Upholds`**), and where
conditions are replaced and the tree is folded anew, it upholds those of the tree with nothing but
the conditions replaced (**`upholds_mapConditions`**). Where the parts have truth values, those of
the folded filters are the conjunction, the disjunction and the negation of them
(**`Truth.allOf`**, **`Truth.anyOf`**, `Truth.not`). Together this is
**`folding_keeps_meaning`**. -/

namespace Warden

/-! ## Truth values of several parts -/

namespace Truth

/-- All together: this fails if one of them does, and otherwise is unknown if one of them is. -/
def allOf (ts : List Truth) : Truth :=
  if .fails ∈ ts then .fails else if .unknown ∈ ts then .unknown else .holds

/-- At least one: this holds if one of them does, and otherwise is unknown if one of them is. -/
def anyOf (ts : List Truth) : Truth :=
  if .holds ∈ ts then .holds else if .unknown ∈ ts then .unknown else .fails

theorem allOf_cons (t : Truth) (ts : List Truth) : allOf (t :: ts) = t.and (allOf ts) := by
  unfold allOf
  simp only [List.mem_cons]
  by_cases hfails : .fails ∈ ts <;> by_cases hunknown : .unknown ∈ ts <;> cases t <;>
    simp [hfails, hunknown, and]

theorem anyOf_cons (t : Truth) (ts : List Truth) : anyOf (t :: ts) = t.or (anyOf ts) := by
  unfold anyOf
  simp only [List.mem_cons]
  by_cases hholds : .holds ∈ ts <;> by_cases hunknown : .unknown ∈ ts <;> cases t <;>
    simp [hholds, hunknown, or]

/-- At least one holds as much as not all of them fail. -/
theorem not_allOf_map_not (ts : List Truth) : (allOf (ts.map not)).not = anyOf ts := by
  induction ts with
  | nil => rfl
  | cons t ts ih => rw [List.map_cons, allOf_cons, not_and, not_not, ih, anyOf_cons]

end Truth

namespace Filter

variable {f : Filter} {fs : List Filter} {record : Record} {v : Condition → Truth}

/-- The truth value of a conjunction is that of its parts together. -/
theorem value_conj_eq_allOf (v : Condition → Truth) (fs : List Filter) :
    (conj fs).value v = Truth.allOf (fs.map (value v)) := by
  rw [value]
  induction fs with
  | nil => rfl
  | cons f fs ih => rw [allValue, List.map_cons, Truth.allOf_cons, ih]

theorem value_disj_eq_anyOf (v : Condition → Truth) (fs : List Filter) :
    (disj fs).value v = Truth.anyOf (fs.map (value v)) := by
  rw [value]
  induction fs with
  | nil => rfl
  | cons f fs ih => rw [anyValue, List.map_cons, Truth.anyOf_cons, ih]

/-! ## Conjunctions as products -/

/-- The conjunction of two answers, the second of which is asked for only if the first one does not
fail. -/
def andThen (x y : Except Defect Truth) : Except Defect Truth := do
  match ← x with
  | .fails => return .fails
  | t => return t.and (← y)

theorem andThen_assoc (x y z : Except Defect Truth) :
    andThen (andThen x y) z = andThen x (andThen y z) := by
  cases x with
  | error e => rfl
  | ok s =>
      cases y with
      | error e => cases s <;> rfl
      | ok t =>
          cases z with
          | error e => cases s <;> cases t <;> rfl
          | ok u => cases s <;> cases t <;> cases u <;> rfl

/-- What holds adds nothing in front. -/
theorem holds_andThen (x : Except Defect Truth) : andThen (.ok .holds) x = x := by
  cases x with
  | error e => rfl
  | ok t => cases t <;> rfl

/-- What holds adds nothing behind. -/
theorem andThen_holds (x : Except Defect Truth) : andThen x (.ok .holds) = x := by
  cases x with
  | error e => rfl
  | ok t => cases t <;> rfl

theorem andThen_ok (s t : Truth) : andThen (.ok s) (.ok t) = .ok (s.and t) := by
  cases s with
  | fails => exact congrArg Except.ok (Truth.fails_and t).symm
  | holds | unknown => rfl

theorem evaluateAll_cons (f : Filter) (fs : List Filter) :
    evaluateAll record (f :: fs) = andThen (f.evaluate record) (evaluateAll record fs) := rfl

theorem evaluateAll_append (fs gs : List Filter) :
    evaluateAll record (fs ++ gs) = andThen (evaluateAll record fs) (evaluateAll record gs) := by
  induction fs with
  | nil => exact (holds_andThen _).symm
  | cons f fs ih =>
      rw [List.cons_append, evaluateAll_cons, evaluateAll_cons, ih, andThen_assoc]

theorem evaluateAll_singleton (f : Filter) : evaluateAll record [f] = f.evaluate record := by
  rw [evaluateAll_cons]
  exact andThen_holds _

/-- Parts may be put in the place of a filter that is evaluated as their conjunction. -/
theorem evaluateAll_flatMap {parts : Filter → List Filter} {whole : Filter → Filter}
    (h : ∀ f, evaluateAll record (parts f) = (whole f).evaluate record) (fs : List Filter) :
    evaluateAll record (fs.flatMap parts) = evaluateAll record (fs.map whole) := by
  induction fs with
  | nil => rfl
  | cons f fs ih =>
      rw [List.flatMap_cons, evaluateAll_append, h, ih, List.map_cons, evaluateAll_cons]

/-! ## Folded filters -/

/-- The conjuncts of a filter are evaluated together as the filter is. -/
theorem evaluateAll_conjuncts (f : Filter) :
    evaluateAll record f.conjuncts = f.evaluate record := by
  cases f with
  | all | conj => rfl
  | leaf | disj | neg | none => exact evaluateAll_singleton _

theorem evaluate_ofConjuncts (fs : List Filter) :
    (ofConjuncts fs).evaluate record = evaluateAll record fs := by
  match fs with
  | [] => rfl
  | [f] => exact (evaluateAll_singleton f).symm
  | f :: g :: fs => rfl

/-- **A folded conjunction is evaluated as the conjunction of its parts**, unless one of them is the
constant that nothing matches, which then is the whole. -/
theorem evaluate_conjoin (record : Record) (fs : List Filter) :
    (conjoin fs).evaluate record =
      if fs.any isNone then .ok .fails else (conj fs).evaluate record := by
  rw [conjoin]
  split
  case isTrue => rfl
  case isFalse =>
    rw [evaluate_ofConjuncts, evaluateAll_flatMap evaluateAll_conjuncts fs, List.map_id', evaluate]

/-- An answer that is turned around twice is the answer. -/
theorem map_not_map_not (x : Except Defect Truth) : (x.map Truth.not).map Truth.not = x := by
  cases x with
  | error e => rfl
  | ok t => exact congrArg Except.ok (Truth.not_not t)

/-- A negation is evaluated by turning the answer around. -/
theorem evaluate_neg (f : Filter) :
    (neg f).evaluate record = (f.evaluate record).map Truth.not := by
  rw [evaluate]
  cases f.evaluate record <;> rfl

/-- **A folded negation is evaluated as the negation.** -/
theorem evaluate_negate (record : Record) (f : Filter) :
    (negate f).evaluate record = (f.evaluate record).map Truth.not := by
  cases f with
  | neg f => rw [negate, evaluate_neg, map_not_map_not]
  | all | none => rfl
  | leaf | conj | disj => exact evaluate_neg _

/-- A disjunction is evaluated by way of its negated parts. -/
theorem evaluate_disj_eq_map (fs : List Filter) :
    (disj fs).evaluate record = (evaluateAll record (fs.map neg)).map Truth.not := by
  rw [evaluate_disj, evaluate_neg, evaluate]

/-- The negated disjuncts of a filter are evaluated together as the negated filter is. -/
theorem evaluateAll_neg_disjuncts (f : Filter) :
    evaluateAll record (f.disjuncts.map neg) = (neg f).evaluate record := by
  cases f with
  | none => rfl
  | disj fs => rw [evaluate_neg, evaluate_disj_eq_map, map_not_map_not, disjuncts]
  | leaf | conj | neg | all => exact evaluateAll_singleton _

theorem evaluate_ofDisjuncts (fs : List Filter) :
    (ofDisjuncts fs).evaluate record = (disj fs).evaluate record := by
  match fs with
  | [] => rfl
  | [f] =>
      rw [evaluate_disj_eq_map, List.map_singleton, evaluateAll_singleton, evaluate_neg,
        map_not_map_not, ofDisjuncts]
  | f :: g :: fs => rfl

/-- **A folded disjunction is evaluated as the disjunction of its parts**, unless one of them is the
constant that everything matches, which then is the whole. -/
theorem evaluate_disjoin (record : Record) (fs : List Filter) :
    (disjoin fs).evaluate record =
      if fs.any isAll then .ok .holds else (disj fs).evaluate record := by
  rw [disjoin]
  split
  case isTrue => rfl
  case isFalse =>
    -- negated, the disjuncts are conjuncts
    rw [evaluate_ofDisjuncts, evaluate_disj_eq_map, evaluate_disj_eq_map, List.map_flatMap,
      evaluateAll_flatMap evaluateAll_neg_disjuncts fs]

/-! ## Answers that are upheld -/

/-- The second answer is the first one, if there is a first one. -/
def Upholds (x y : Except Defect Truth) : Prop :=
  ∀ t, x = .ok t → y = .ok t

theorem Upholds.refl (x : Except Defect Truth) : Upholds x x :=
  fun _ h => h

theorem Upholds.trans {x y z : Except Defect Truth} (h : Upholds x y) (h' : Upholds y z) :
    Upholds x z :=
  fun t ht => h' t (h t ht)

theorem Upholds.map_not {x y : Except Defect Truth} (h : Upholds x y) :
    Upholds (x.map Truth.not) (y.map Truth.not) := by
  intro t ht
  obtain ⟨s, hs, rfl⟩ := Outcome.map_eq_ok.1 ht
  rw [h s hs]
  rfl

theorem Upholds.andThen {x y x' y' : Except Defect Truth} (h : Upholds x x') (h' : Upholds y y') :
    Upholds (andThen x y) (andThen x' y') := by
  cases x with
  | error e => exact nofun
  | ok s =>
      rw [h s rfl]
      cases s with
      -- the second answer is not asked for
      | fails => exact Upholds.refl _
      | holds | unknown =>
          cases y with
          | error e => exact nofun
          | ok t =>
              rw [h' t rfl]
              exact Upholds.refl _

/-- Parts whose answers are upheld have theirs together upheld. -/
theorem upholds_evaluateAll {gs : List Filter}
    (h : List.Forall₂ (fun f g => Upholds (f.evaluate record) (g.evaluate record)) fs gs) :
    Upholds (evaluateAll record fs) (evaluateAll record gs) := by
  induction h with
  | nil => exact Upholds.refl _
  | cons hfg _ ih =>
      rw [evaluateAll_cons, evaluateAll_cons]
      exact hfg.andThen ih

theorem upholds_disj {gs : List Filter}
    (h : List.Forall₂ (fun f g => Upholds (f.evaluate record) (g.evaluate record)) fs gs) :
    Upholds ((disj fs).evaluate record) ((disj gs).evaluate record) := by
  rw [evaluate_disj_eq_map, evaluate_disj_eq_map]
  refine (upholds_evaluateAll ?_).map_not
  rw [List.forall₂_map_left_iff, List.forall₂_map_right_iff]
  refine h.imp fun f g hfg => ?_
  rw [evaluate_neg, evaluate_neg]
  exact hfg.map_not

/-- A conjunction with a part that fails has no other answer than that. -/
theorem eq_fails_of_evaluateAll (hf : f ∈ fs) (hfails : f.evaluate record = .ok .fails) {t : Truth}
    (h : evaluateAll record fs = .ok t) : t = .fails := by
  obtain ⟨before, after, rfl⟩ := List.append_of_mem hf
  rw [evaluateAll_append, evaluateAll_cons, hfails] at h
  cases hbefore : evaluateAll record before with
  | error e =>
      rw [hbefore] at h
      cases h
  | ok s =>
      have hboth := andThen_ok s .fails
      rw [Truth.and_fails] at hboth
      rw [hbefore] at h
      exact (Except.ok.inj (hboth.symm.trans h)).symm

/-- **Folding a conjunction upholds its answers.** -/
theorem upholds_conjoin (record : Record) (fs : List Filter) :
    Upholds ((conj fs).evaluate record) ((conjoin fs).evaluate record) := by
  rw [evaluate_conjoin]
  split
  case isTrue hnone =>
    intro t ht
    obtain ⟨f, hf, hfnone⟩ := List.any_eq_true.1 hnone
    have hfails : f.evaluate record = .ok .fails := by
      cases f with
      | none => rfl
      | leaf | conj | disj | neg | all => cases hfnone
    -- the unfolded conjunction breaks off or fails, too
    rw [evaluate] at ht
    rw [eq_fails_of_evaluateAll hf hfails ht]
  case isFalse => exact Upholds.refl _

/-- **Folding a disjunction upholds its answers.** -/
theorem upholds_disjoin (record : Record) (fs : List Filter) :
    Upholds ((disj fs).evaluate record) ((disjoin fs).evaluate record) := by
  rw [evaluate_disjoin]
  split
  case isTrue hall =>
    intro t ht
    obtain ⟨f, hf, hfall⟩ := List.any_eq_true.1 hall
    have hfails : (neg f).evaluate record = .ok .fails := by
      cases f with
      | all => rfl
      | leaf | conj | disj | neg | none => cases hfall
    rw [evaluate_disj_eq_map] at ht
    obtain ⟨s, hs, rfl⟩ := Outcome.map_eq_ok.1 ht
    rw [eq_fails_of_evaluateAll (List.mem_map_of_mem hf) hfails hs]
    rfl
  case isFalse => exact Upholds.refl _

/-! ## Parts with truth values -/

variable {ts : List Truth}

/-- Parts with truth values have them together as a conjunction. -/
theorem evaluate_conj_eq_allOf (h : List.Forall₂ (fun f t => f.evaluate record = .ok t) fs ts) :
    (conj fs).evaluate record = .ok (Truth.allOf ts) := by
  rw [evaluate]
  induction h with
  | nil => rfl
  | cons hf _ ih => rw [evaluateAll_cons, hf, ih, andThen_ok, Truth.allOf_cons]

/-- Parts with truth values have them together as a disjunction. -/
theorem evaluate_disj_eq_anyOf (h : List.Forall₂ (fun f t => f.evaluate record = .ok t) fs ts) :
    (disj fs).evaluate record = .ok (Truth.anyOf ts) := by
  have hneg : List.Forall₂ (fun f t => f.evaluate record = .ok t) (fs.map neg)
      (ts.map Truth.not) := by
    rw [List.forall₂_map_left_iff, List.forall₂_map_right_iff]
    refine h.imp fun f t hf => ?_
    rw [evaluate_neg, hf]
    rfl
  rw [evaluate_disj, evaluate_neg, evaluate_conj_eq_allOf hneg, ← Truth.not_allOf_map_not]
  rfl

/-! ## Replaced conditions -/

mutual

/-- The filter with other conditions in the place of its own, and nothing folded. -/
def withConditions (m : Condition → Condition) : Filter → Filter
  | .leaf c => .leaf (m c)
  | .conj fs => .conj (allWithConditions m fs)
  | .disj fs => .disj (allWithConditions m fs)
  | .neg f => .neg (withConditions m f)
  | .all => .all
  | .none => .none

/-- The filters with other conditions in the place of theirs. -/
def allWithConditions (m : Condition → Condition) : List Filter → List Filter
  | [] => []
  | f :: fs => withConditions m f :: allWithConditions m fs

end

variable {m : Condition → Condition}

theorem allWithConditions_eq_map (m : Condition → Condition) (fs : List Filter) :
    allWithConditions m fs = fs.map (withConditions m) := by
  induction fs with
  | nil => rfl
  | cons f fs ih => rw [allWithConditions, List.map_cons, ih]

/-- **Replacing conditions and folding anew upholds the answers of the tree with the other
conditions.** -/
theorem upholds_mapConditions (record : Record) {g : Filter}
    (h : f.mapConditions (fun c => .ok (.leaf (m c))) = .ok g) :
    Upholds ((f.withConditions m).evaluate record) (g.evaluate record) := by
  refine mapConditions_induction
    (R := fun f g => Upholds ((f.withConditions m).evaluate record) (g.evaluate record))
    ?_ ?_ ?_ ?_ (Upholds.refl _) (Upholds.refl _) h
  · rintro c _ ⟨⟩
    exact Upholds.refl _
  · intro fs gs hgs
    refine Upholds.trans ?_ (upholds_conjoin record gs)
    rw [withConditions, allWithConditions_eq_map, evaluate, evaluate]
    exact upholds_evaluateAll (List.forall₂_map_left_iff.2 hgs)
  · intro fs gs hgs
    refine Upholds.trans ?_ (upholds_disjoin record gs)
    rw [withConditions, allWithConditions_eq_map]
    exact upholds_disj (List.forall₂_map_left_iff.2 hgs)
  · intro f g hfg
    rw [withConditions, evaluate_neg, evaluate_negate]
    exact hfg.map_not

/-- With other conditions a filter has the truth value that these give it, if they have one. -/
theorem evaluate_withConditions (hv : ∀ c ∈ f.conditions, (m c).evaluate record = .ok (v c)) :
    (f.withConditions m).evaluate record = .ok (f.value v) := by
  have hparts {fs : List Filter}
      (h : ∀ f ∈ fs, (f.withConditions m).evaluate record = .ok (f.value v)) :
      List.Forall₂ (fun f t => f.evaluate record = .ok t) (fs.map (withConditions m))
        (fs.map (value v)) := by
    rw [List.forall₂_map_left_iff, List.forall₂_map_right_iff]
    exact List.forall₂_same.2 h
  induction f with
  | leaf c => exact hv c (List.mem_singleton_self c)
  | conj fs ih =>
      rw [withConditions, allWithConditions_eq_map, value_conj_eq_allOf]
      exact evaluate_conj_eq_allOf (hparts fun f hf =>
        ih f hf fun c hc => hv c (mem_conditions_conj.2 ⟨f, hf, hc⟩))
  | disj fs ih =>
      rw [withConditions, allWithConditions_eq_map, value_disj_eq_anyOf]
      exact evaluate_disj_eq_anyOf (hparts fun f hf =>
        ih f hf fun c hc => hv c (mem_conditions_disj.2 ⟨f, hf, hc⟩))
  | neg f ih =>
      rw [withConditions, evaluate_neg, ih hv]
      rfl
  | all | none => rfl

end Filter

/-- **Folding keeps what filters mean.** Take any record.

* A folded conjunction or disjunction of filters, absent ones left out, is evaluated as the unfolded
  one, breaking off where it does, unless a constant among the filters settles the whole. If the
  filters have truth values, it has their conjunction or disjunction.
* A folded negation has the negated truth value, and breaks off where what it negates does.
* If the conditions of a filter are replaced and it is folded anew, it has the truth value that the
  filter with the other conditions has. If all of these conditions have truth values, that is the
  one that they give the filter.
* Replacing each condition by itself gives back exactly the filters in normal form. -/
theorem folding_keeps_meaning (record : Record) :
    (∀ fs : List (Option Filter),
      (Filter.conjoin fs.reduceOption).evaluate record =
        (if fs.reduceOption.any Filter.isNone then .ok .fails
          else (Filter.conj fs.reduceOption).evaluate record) ∧
      (Filter.disjoin fs.reduceOption).evaluate record =
        (if fs.reduceOption.any Filter.isAll then .ok .holds
          else (Filter.disj fs.reduceOption).evaluate record) ∧
      ∀ ts, List.Forall₂ (fun f t => f.evaluate record = .ok t) fs.reduceOption ts →
        (Filter.conjoin fs.reduceOption).evaluate record = .ok (Truth.allOf ts) ∧
        (Filter.disjoin fs.reduceOption).evaluate record = .ok (Truth.anyOf ts)) ∧
    (∀ f : Filter, f.negate.evaluate record = (f.evaluate record).map Truth.not) ∧
    (∀ (f : Filter) (m : Condition → Condition),
      ∃ g, f.mapConditions (fun c => .ok (.leaf (m c))) = .ok g ∧
        (∀ t, (f.withConditions m).evaluate record = .ok t → g.evaluate record = .ok t) ∧
        ∀ v : Condition → Truth, (∀ c ∈ f.conditions, (m c).evaluate record = .ok (v c)) →
          g.evaluate record = .ok (f.value v)) ∧
    ∀ f : Filter, f.mapConditions (fun c => .ok (.leaf c)) = .ok f ↔ f.Normal := by
  refine ⟨fun fs => ⟨Filter.evaluate_conjoin record _, Filter.evaluate_disjoin record _, ?_⟩,
    Filter.evaluate_negate record, ?_, fun f => Filter.mapConditions_leaf_iff⟩
  · intro ts h
    exact ⟨Filter.upholds_conjoin record _ _ (Filter.evaluate_conj_eq_allOf h),
      Filter.upholds_disjoin record _ _ (Filter.evaluate_disj_eq_anyOf h)⟩
  · intro f m
    obtain ⟨g, hg⟩ := Filter.exists_mapConditions (fun c => ⟨.leaf (m c), rfl⟩) f
    have hupholds := Filter.upholds_mapConditions record hg
    exact ⟨g, hg, hupholds, fun v hv => hupholds _ (Filter.evaluate_withConditions hv)⟩

namespace Sample

/-- A post with a title, of which nothing else is known. -/
def onlyTitle : Record :=
  [("title", .text "t")]

/-- The title is this one, and the author is called Ada; there is no third condition. -/
def titleAndAuthor : List (Option Filter) :=
  [some (.leaf ⟨"title", .eq, .text "t", none⟩), none,
    some (.conj [.leaf ⟨"author.name", .eq, .text "Ada", none⟩, .all])]

/-- The condition, asked of the title. -/
def ofTitle (c : Condition) : Condition :=
  { c with field := "title" }

end Sample

/-- The title of a post is known and its author is not, so both together are unknown and one of them
holds. Asked of the title, none of the conditions on authors holds, and the negation of them does. A
filter in normal form comes back as it is. -/
theorem folding_keeps_meaning_onlyTitle :
    List.Forall₂ (fun f t => Filter.evaluate Sample.onlyTitle f = .ok t)
      Sample.titleAndAuthor.reduceOption [.holds, .unknown] ∧
    (Filter.conjoin Sample.titleAndAuthor.reduceOption).evaluate Sample.onlyTitle = .ok .unknown ∧
    (Filter.disjoin Sample.titleAndAuthor.reduceOption).evaluate Sample.onlyTitle = .ok .holds ∧
    (∀ c ∈ Sample.notUntitledByAda.conditions,
      (Sample.ofTitle c).evaluate Sample.onlyTitle = .ok .fails) ∧
    (∃ g, Sample.notUntitledByAda.mapConditions (fun c => .ok (.leaf (Sample.ofTitle c))) = .ok g ∧
      g.evaluate Sample.onlyTitle = .ok .holds) ∧
    Sample.partlyHidden.Normal ∧
    Sample.partlyHidden.mapConditions (fun c => .ok (.leaf c)) = .ok Sample.partlyHidden := by
  obtain ⟨hlists, -, hreplaced, hnormal⟩ := folding_keeps_meaning Sample.onlyTitle
  have htitle (t : String) : Condition.evaluate ⟨"title", .eq, .text t, none⟩ Sample.onlyTitle =
      .ok (.ofBool ("t" == t)) := Condition.evaluate_text (by rfl) (by rfl)
  have hparts : List.Forall₂ (fun f t => Filter.evaluate Sample.onlyTitle f = .ok t)
      Sample.titleAndAuthor.reduceOption [.holds, .unknown] :=
    .cons (htitle "t") (.cons (by rfl) .nil)
  obtain ⟨hconjoin, hdisjoin⟩ := (hlists Sample.titleAndAuthor).2.2 _ hparts
  have hconditions : ∀ c ∈ Sample.notUntitledByAda.conditions,
      (Sample.ofTitle c).evaluate Sample.onlyTitle = .ok .fails := by
    exact List.forall_mem_cons.2 ⟨htitle "Ada", List.forall_mem_singleton.2 (by rfl)⟩
  obtain ⟨g, hg, -, hvalue⟩ := hreplaced Sample.notUntitledByAda Sample.ofTitle
  exact ⟨hparts, hconjoin, hdisjoin, hconditions, ⟨g, hg, hvalue (fun _ => .fails) hconditions⟩,
    Sample.normal_partlyHidden, (hnormal _).2 Sample.normal_partlyHidden⟩

end Warden
