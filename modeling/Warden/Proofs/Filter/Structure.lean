import Warden.Proofs.Sql.Structure

/-! # Filters read from the text of their predicates

The text of a filter's predicate, read as the language has it, says what the filter is: every
connective stands where the filter has it, and below the connectives stand its conditions
(**`Filter.ReadsAs`**, `readsAs_predicate`). So nothing that a filter holds can be taken for a part
of another one.

This needs groups that are not empty. The folding constructors never build one: whatever they put
together is **`Filter.Branching`**, and the predicate of a branching filter has something in each of
its groups. -/

namespace Warden

open Sql

/-! ## Branching filters -/

namespace Filter

/-- Every conjunction and every disjunction in the filter has at least two children. -/
inductive Branching : Filter → Prop where
  /-- There is none. -/
  | leaf (condition : Condition) : Branching (.leaf condition)
  /-- This one has, and so have those below. -/
  | conj {fs : List Filter} (hlength : 2 ≤ fs.length) (h : ∀ f ∈ fs, Branching f) :
      Branching (.conj fs)
  /-- This one has, and so have those below. -/
  | disj {fs : List Filter} (hlength : 2 ≤ fs.length) (h : ∀ f ∈ fs, Branching f) :
      Branching (.disj fs)
  /-- Those below have. -/
  | neg {f : Filter} (h : Branching f) : Branching (.neg f)
  /-- There is none. -/
  | all : Branching .all
  /-- There is none. -/
  | none : Branching .none

variable {fs : List Filter} {f : Filter}

theorem branching_ofConjuncts (h : ∀ f ∈ fs, f.Branching) : (ofConjuncts fs).Branching := by
  match fs with
  | [] => exact .all
  | [f] => exact h f List.mem_cons_self
  | f :: g :: fs => exact .conj (by simp) h

theorem branching_ofDisjuncts (h : ∀ f ∈ fs, f.Branching) : (ofDisjuncts fs).Branching := by
  match fs with
  | [] => exact .none
  | [f] => exact h f List.mem_cons_self
  | f :: g :: fs => exact .disj (by simp) h

/-- **Folding keeps filters branching.** -/
theorem branching_conjoin (h : ∀ f ∈ fs, f.Branching) : (conjoin fs).Branching := by
  unfold conjoin
  split
  · exact .none
  · refine branching_ofConjuncts fun g hg => ?_
    obtain ⟨f, hf, hgf⟩ := List.mem_flatMap.1 hg
    have hbranching := h f hf
    cases hbranching with
    | conj _ hchildren => exact hchildren g hgf
    | all => cases hgf
    | leaf | disj | neg | none =>
        obtain rfl := List.mem_singleton.1 hgf
        exact h _ hf

theorem branching_disjoin (h : ∀ f ∈ fs, f.Branching) : (disjoin fs).Branching := by
  unfold disjoin
  split
  · exact .all
  · refine branching_ofDisjuncts fun g hg => ?_
    obtain ⟨f, hf, hgf⟩ := List.mem_flatMap.1 hg
    have hbranching := h f hf
    cases hbranching with
    | disj _ hchildren => exact hchildren g hgf
    | none => cases hgf
    | leaf | conj | neg | all =>
        obtain rfl := List.mem_singleton.1 hgf
        exact h _ hf

theorem branching_negate (h : f.Branching) : (negate f).Branching := by
  cases h with
  | neg h => exact h
  | all => exact .none
  | none => exact .all
  | leaf condition => exact .neg (.leaf condition)
  | conj hlength h => exact .neg (.conj hlength h)
  | disj hlength h => exact .neg (.disj hlength h)

/-- **Folding makes filters branching**: where every condition is replaced by a branching filter,
the whole is branching, whatever it was before. -/
theorem branching_mapConditions {m : Condition → Outcome Filter}
    (hm : ∀ c g, m c = .ok g → g.Branching) {g : Filter} (h : f.mapConditions m = .ok g) :
    g.Branching := by
  have hparts {fs gs : List Filter} (hgs : List.Forall₂ (fun _ g => g.Branching) fs gs) :
      ∀ g ∈ gs, g.Branching := by
    intro g hg
    obtain ⟨_, -, hbranching⟩ := exists_of_mem_right hgs hg
    exact hbranching
  exact mapConditions_induction (R := fun _ g => g.Branching) hm
    (fun _ _ hgs => branching_conjoin (hparts hgs)) (fun _ _ hgs => branching_disjoin (hparts hgs))
    (fun _ _ => branching_negate) .all .none h

end Filter

/-! ## What a filter reads as -/

/-- The reading is that of a condition on the field at the end of a path from a row on: behind each
relation on the way there is a row that belongs to the one before it. -/
inductive Condition.ReadsAs (k : Catalog) (condition : Condition) :
    List String → Collection → Alias → Reading → Prop where
  /-- The test of the field. -/
  | field {name : String} {c : Collection} {row : Alias} {p : Predicate}
      (h : fieldPredicate c row name condition = .ok p) : ReadsAs k condition [name] c row p.reading
  /-- There is a row behind the relation. -/
  | behind {relation : String} {rest : List String} {c target : Collection} {row n m : Alias}
      {j : Join} {r : Reading} (hjoin : joinRelation k c row relation n = .ok ((j, target), m))
      (h : ReadsAs k condition rest target j.tableAlias r) :
      ReadsAs k condition (relation :: rest) c row (.exist j.query (.conj (j.onReadings ++ [r])))

/-- The reading has the connectives of the filter, in the same places, and its conditions below
them. -/
inductive Filter.ReadsAs (k : Catalog) (c : Collection) (row : Alias) :
    Filter → Reading → Prop where
  /-- A condition is read as one. -/
  | leaf {condition : Condition} {r : Reading}
      (h : condition.ReadsAs k (Text.split '.' condition.field) c row r) :
      ReadsAs k c row (.leaf condition) r
  /-- A conjunction is read as the conjunction of what its children are read as. -/
  | conj {fs : List Filter} {rs : List Reading} (h : List.Forall₂ (ReadsAs k c row) fs rs) :
      ReadsAs k c row (.conj fs) (.conj rs)
  /-- A disjunction is read as the disjunction of what its children are read as. -/
  | disj {fs : List Filter} {rs : List Reading} (h : List.Forall₂ (ReadsAs k c row) fs rs) :
      ReadsAs k c row (.disj fs) (.disj rs)
  /-- A negation is read as the negation of what its child is read as. -/
  | neg {f : Filter} {r : Reading} (h : ReadsAs k c row f r) : ReadsAs k c row (.neg f) (.neg r)
  /-- What every row matches is read as true. -/
  | all : ReadsAs k c row .all (.comparison [.word "TRUE"])
  /-- What no row matches is read as false. -/
  | none : ReadsAs k c row .none (.comparison [.word "FALSE"])

/-- The reading is that of a condition on the rows behind a relation of the base row. -/
def RelationReadsAs (k : Catalog) (c : Collection) (entry : String × Filter) (r : Reading) : Prop :=
  ∃ n m j target inner, joinRelation k c baseAlias entry.1 n = .ok ((j, target), m) ∧
    entry.2.ReadsAs k target j.tableAlias inner ∧
    r = .exist j.query (.conj (j.onReadings ++ [inner]))

/-! ## Predicates of branching filters -/

variable {k : Catalog} {c : Collection} {row n m : Alias} {p : Predicate}

theorem filled_fieldPredicate {name : String} {condition : Condition}
    (h : fieldPredicate c row name condition = .ok p) : p.Filled := by
  obtain ⟨_, _, -, -, h⟩ := exists_operand_of_fieldPredicate h
  obtain ⟨b, rfl⟩ | ⟨t, rfl, -⟩ := exists_test_of_operatorPredicate h
  · exact .constant b
  · exact .test t

theorem readsAs_pathPredicate {condition : Condition} {path : List String}
    (h : pathPredicate k condition path c row n = .ok (p, m)) :
    p.Filled ∧ condition.ReadsAs k path c row p.reading := by
  induction path, c, row using pathPredicate.induct generalizing n m p with
  | case1 c row => cases h
  | case2 name c row =>
      rw [pathPredicate, Build.lift_eq_ok] at h
      exact ⟨filled_fieldPredicate h.1, .field h.1⟩
  | case3 relation rest c row hrest ih =>
      rw [pathPredicate] at h
      · obtain ⟨⟨j, target⟩, _, hjoin, h⟩ := Build.bind_eq_ok.1 h
        obtain ⟨q, _, hq, h⟩ := Build.bind_eq_ok.1 h
        obtain ⟨rfl, -⟩ := Build.pure_eq_ok.1 h
        obtain ⟨hfilled, hreads⟩ := ih j target hq
        rw [Predicate.reading_exist]
        exact ⟨.exist j hfilled, .behind hjoin hreads⟩
      · exact hrest

/-- Of at least two filters, what their predicates are and what they are read as. -/
theorem readings_of_forall₂ {fs : List Filter} {ps : List Predicate} (hlength : 2 ≤ fs.length)
    (h : List.Forall₂ (fun p f => p.Filled ∧ f.ReadsAs k c row p.reading) ps fs) :
    ps ≠ [] ∧ (∀ p ∈ ps, p.Filled) ∧ 2 ≤ (ps.map Predicate.reading).length ∧
      List.Forall₂ (Filter.ReadsAs k c row) fs (ps.map Predicate.reading) := by
  obtain ⟨hfilled, hreads⟩ := (List.forall₂_and_left _ _).1 h
  have hequal : ps.length = fs.length := h.length_eq
  refine ⟨?_, hfilled, ?_, (List.forall₂_map_left_iff.2 hreads).flip⟩
  · rintro rfl
    rw [List.length_nil] at hequal
    omega
  · rw [List.length_map, hequal]
    exact hlength

/-- **The predicate of a branching filter is read as the filter.** -/
theorem readsAs_predicate {f : Filter} (hf : f.Branching)
    (h : f.predicate k c row n = .ok (p, m)) : p.Filled ∧ f.ReadsAs k c row p.reading := by
  induction f generalizing n m p with
  | leaf condition =>
      obtain ⟨hfilled, hreads⟩ := readsAs_pathPredicate h
      exact ⟨hfilled, .leaf hreads⟩
  | conj fs ih =>
      obtain ⟨ps, _, hps, h⟩ := Build.bind_eq_ok.1 h
      obtain ⟨rfl, -⟩ := Build.pure_eq_ok.1 h
      cases hf with
      | conj hlength hchildren =>
          have hall := forall₂_predicates (fun f hf => ih f hf (hchildren f hf)) hps
          obtain ⟨hne, hfilled, hreadings, hreads⟩ := readings_of_forall₂ hlength hall
          rw [Predicate.reading, Predicate.readings_eq_map, Reading.conjoined_of_length hreadings]
          exact ⟨.conj hne hfilled, .conj hreads⟩
  | disj fs ih =>
      obtain ⟨ps, _, hps, h⟩ := Build.bind_eq_ok.1 h
      obtain ⟨rfl, -⟩ := Build.pure_eq_ok.1 h
      cases hf with
      | disj hlength hchildren =>
          have hall := forall₂_predicates (fun f hf => ih f hf (hchildren f hf)) hps
          obtain ⟨hne, hfilled, hreadings, hreads⟩ := readings_of_forall₂ hlength hall
          rw [Predicate.reading, Predicate.readings_eq_map, Reading.disjoined_of_length hreadings]
          exact ⟨.disj hne hfilled, .disj hreads⟩
  | neg f ih =>
      obtain ⟨q, _, hq, h⟩ := Build.bind_eq_ok.1 h
      obtain ⟨rfl, -⟩ := Build.pure_eq_ok.1 h
      cases hf with
      | neg hchild =>
          obtain ⟨hfilled, hreads⟩ := ih hchild hq
          exact ⟨.neg hfilled, .neg hreads⟩
  | all =>
      obtain ⟨rfl, -⟩ := Build.pure_eq_ok.1 h
      exact ⟨.constant true, .all⟩
  | none =>
      obtain ⟨rfl, -⟩ := Build.pure_eq_ok.1 h
      exact ⟨.constant false, .none⟩

/-- The predicates of relation conditions are read as searches for rows, one for each condition that
not every row matches. -/
theorem readsAs_relationPredicates {fs : Named Filter} {ps : List Predicate}
    (hf : ∀ entry ∈ fs, entry.2.Branching) (h : relationPredicates k c fs n = .ok (ps, m)) :
    List.Forall₂ (fun p entry => p.Filled ∧ RelationReadsAs k c entry p.reading) ps
      (fs.filter fun entry => !entry.2.isAll) := by
  induction fs generalizing n m ps with
  | nil =>
      obtain ⟨rfl, -⟩ := Build.pure_eq_ok.1 h
      exact .nil
  | cons entry fs ih =>
      obtain ⟨hfirst, hrest⟩ := List.forall_mem_cons.1 hf
      obtain ⟨name, f⟩ := entry
      rw [relationPredicates] at h
      by_cases hall : f.isAll = true
      · rw [if_pos hall] at h
        rw [List.filter_cons_of_neg (by simp [hall])]
        exact ih hrest h
      · rw [if_neg hall] at h
        rw [List.filter_cons_of_pos (by simp [hall])]
        obtain ⟨⟨j, target⟩, _, hjoin, h⟩ := Build.bind_eq_ok.1 h
        obtain ⟨q, _, hq, h⟩ := Build.bind_eq_ok.1 h
        obtain ⟨qs, _, hqs, h⟩ := Build.bind_eq_ok.1 h
        obtain ⟨rfl, -⟩ := Build.pure_eq_ok.1 h
        obtain ⟨hfilled, hreads⟩ := readsAs_predicate hfirst hq
        refine .cons ⟨.exist j hfilled, ?_⟩ (ih hrest hqs)
        exact ⟨_, _, j, target, _, hjoin, hreads, Predicate.reading_exist j q⟩

end Warden
