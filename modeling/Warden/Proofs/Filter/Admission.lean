import Mathlib.Data.List.Forall2
import Warden.Proofs.Filter.Completion
import Warden.Proofs.Sql.Condition

/-! # Admission in memory and selection by the database

A rule's filter admits a record before there is a row and selects the row afterwards. If it
compares integers (**`Filter.ComparesIntegers`**), its predicate has a truth value on the row, and
the two answers are related from the conditions upwards (**`Filter.Answers`**):

* the database never contradicts memory;
* it gives the answer that the negations around ask for, unless an absent value is compared under an
  odd number of them (**`Filter.conditionsUnder`**). There the comparison is false in memory, so its
  negation holds, but null in the database, and so is its negation.

Hence a selected row is one that was admitted, and an admitted record is selected with that
exception (**`admitted_and_selected`**). -/

namespace Warden

open Sql

/-! ## Filters -/

namespace Filter

/-- The filter is built from conditions that compare integers, and every connective in it joins at
least one part. -/
inductive ComparesIntegers (c : Collection) : Filter → Prop where
  | leaf {condition : Condition} (h : condition.ComparesIntegers c) :
      ComparesIntegers c (leaf condition)
  | conj {fs : List Filter} (hne : fs ≠ []) (h : ∀ f ∈ fs, ComparesIntegers c f) :
      ComparesIntegers c (conj fs)
  | disj {fs : List Filter} (hne : fs ≠ []) (h : ∀ f ∈ fs, ComparesIntegers c f) :
      ComparesIntegers c (disj fs)
  | neg {f : Filter} (h : ComparesIntegers c f) : ComparesIntegers c (neg f)
  | all : ComparesIntegers c all
  | none : ComparesIntegers c none

mutual

/-- The conditions that stand under an odd number of negations, where the number of those around the
filter is odd or not. -/
def conditionsUnder : (odd : Bool) → Filter → List Condition
  | odd, .leaf c => if odd then [c] else []
  | odd, .conj fs => conditionsUnderOf odd fs
  | odd, .disj fs => conditionsUnderOf odd fs
  | odd, .neg f => conditionsUnder (!odd) f
  | _, .all => []
  | _, .none => []

/-- The conditions of several filters that stand under an odd number of negations. -/
def conditionsUnderOf : (odd : Bool) → List Filter → List Condition
  | _, [] => []
  | odd, f :: fs => conditionsUnder odd f ++ conditionsUnderOf odd fs

end

theorem conditionsUnderOf_map_neg (odd : Bool) (fs : List Filter) :
    conditionsUnderOf odd (fs.map neg) = conditionsUnderOf (!odd) fs := by
  induction fs with
  | nil => rfl
  | cons f fs ih => rw [List.map_cons, conditionsUnderOf, conditionsUnder, ih, conditionsUnderOf]

/-- None of the conditions compares a value that the record does not have. -/
def NoneAbsent (record : Record) (conditions : List Condition) : Prop :=
  ∀ condition ∈ conditions, condition.comparesAbsent record = false

theorem noneAbsent_append {record : Record} {cs ds : List Condition} :
    NoneAbsent record (cs ++ ds) ↔ NoneAbsent record cs ∧ NoneAbsent record ds :=
  List.forall_mem_append

/-- What memory answers, `b`, and what the database answers, `t`. The database never contradicts
memory. Its answer is the same one if it is the one that the negations around ask for and no absent
value is compared under an odd number of negations. -/
structure Answers (record : Record) (conditions : Bool → List Condition) (b : Bool) (t : Truth) :
    Prop where
  /-- The database has the same answer or none. -/
  allows : t.Allows (.ofBool b)
  /-- It has the answer that is asked for. -/
  eq_of_ne : ∀ odd, NoneAbsent record (conditions odd) → b ≠ odd → t = .ofBool b

/-- The filter and the predicate that it stands for on a row of the collection, with their answers
on the record and on the row. -/
structure StandsFor (k : Catalog) (c : Collection) (a : Alias) (row : IntegerRow) (record : Record)
    (f : Filter) (p : Predicate) : Prop where
  /-- The predicate is that of the filter, and needs no other table. -/
  predicate : ∀ n, f.predicate k c a n = .ok (p, n)
  /-- The two have answers that agree. -/
  answers : ∃ b t, f.evaluate record = .ok (.ofBool b) ∧ p.truth? row = some t ∧
    Answers record (conditionsUnder · f) b t

variable {k : Catalog} {c : Collection} {a : Alias} {row : IntegerRow} {record : Record}
  {f : Filter} {fs : List Filter} {p : Predicate} {ps : List Predicate}

theorem standsFor_leaf {condition : Condition} (h : condition.ComparesIntegers c)
    (hrow : record.get condition.field = .ofInt? (row ⟨a, condition.field⟩)) :
    ∃ p, StandsFor k c a row record (.leaf condition) p := by
  obtain ⟨p, b, hp, hb, ht, hnull⟩ := h.agrees k hrow
  refine ⟨p, hp, b, _, hb, ht, ?_, ?_⟩
  · split
    · exact Truth.unknown_allows _
    · exact Truth.Allows.refl _
  · intro odd hnone hne
    refine if_neg fun habsent => ?_
    cases odd with
    | false => exact hne (hnull habsent)
    | true =>
        have hpresent := hnone condition (by simp [conditionsUnder])
        rw [hpresent] at habsent
        cases habsent

theorem StandsFor.neg (h : StandsFor k c a row record f p) :
    StandsFor k c a row record (.neg f) (.neg p) := by
  obtain ⟨hp, b, t, hb, ht, hans⟩ := h
  refine ⟨?_, !b, t.not, ?_, ?_, ?_, ?_⟩
  · intro n
    simp only [Filter.predicate, bind, StateT.bind, hp]
    rfl
  · exact evaluate_neg_eq_ok.2 ⟨_, hb, (Truth.ofBool_not b).symm⟩
  · rw [Predicate.truth?, ht, Option.map_some]
  · rw [Truth.ofBool_not]
    exact hans.allows.not
  · intro odd hnone hne
    rw [hans.eq_of_ne (!odd) hnone (by simpa using hne), Truth.ofBool_not]

theorem predicates_of_standsFor (h : List.Forall₂ (StandsFor k c a row record) fs ps) (n : Alias) :
    predicates k c a fs n = .ok (ps, n) := by
  induction h with
  | nil => rfl
  | cons hf _ ih =>
      simp only [predicates, bind, StateT.bind, hf.predicate, Except.bind, ih]
      rfl

/-- The answers to a conjunction. -/
theorem answers_conj (h : List.Forall₂ (StandsFor k c a row record) fs ps) :
    ∃ b t, evaluateAll record fs = .ok (.ofBool b) ∧ Predicate.allTruth? row ps = some t ∧
      Answers record (conditionsUnderOf · fs) b t := by
  induction h with
  | nil => exact ⟨true, .holds, rfl, rfl, Truth.Allows.refl _, fun _ _ _ => rfl⟩
  | cons hf _ ih =>
      obtain ⟨b, t, hb, ht, hans⟩ := hf.answers
      obtain ⟨b', t', hb', ht', hans'⟩ := ih
      refine ⟨b && b', t.and t', ?_, ?_, ?_, ?_⟩
      · exact evaluateAll_cons_eq_ok.2 ⟨_, _, hb, Truth.ofBool_and b b', .inr hb'⟩
      · rw [Predicate.allTruth?, ht, ht']
        rfl
      · rw [Truth.ofBool_and]
        exact hans.allows.and hans'.allows
      · intro odd hnone hne
        obtain ⟨hnone, hnone'⟩ := noneAbsent_append.1 hnone
        have heq := hans.eq_of_ne odd hnone
        have heq' := hans'.eq_of_ne odd hnone'
        -- a part decides the whole only if it fails, which is the answer asked for under a negation
        cases odd with
        | false =>
            obtain ⟨rfl, rfl⟩ : b = true ∧ b' = true := by simpa using hne
            rw [heq (by decide), heq' (by decide), Truth.ofBool_and]
        | true =>
            obtain rfl | rfl := Bool.and_eq_false_iff.1 (eq_false_of_ne_true hne)
            · rw [heq (by decide)]
              exact Truth.fails_and t'
            · rw [heq' (by decide), Bool.and_false]
              exact Truth.and_fails t

theorem StandsFor.conj (hne : fs ≠ []) (h : List.Forall₂ (StandsFor k c a row record) fs ps) :
    StandsFor k c a row record (.conj fs) (.conj ps) := by
  obtain ⟨b, t, hb, ht, hans⟩ := answers_conj h
  have hps : ps.isEmpty = false := by
    cases h with
    | nil => exact absurd rfl hne
    | cons _ _ => rfl
  refine ⟨?_, b, t, hb, ?_, hans⟩
  · intro n
    simp only [Filter.predicate, bind, StateT.bind, predicates_of_standsFor h]
    rfl
  · rw [Predicate.truth?, hps]
    exact ht

/-- A disjunction answers as the negation of the conjunction of its negated parts, in memory and in
the database. -/
theorem StandsFor.disj (hne : fs ≠ []) (h : List.Forall₂ (StandsFor k c a row record) fs ps) :
    StandsFor k c a row record (.disj fs) (.disj ps) := by
  have hneg : List.Forall₂ (StandsFor k c a row record) (fs.map .neg) (ps.map .neg) := by
    rw [List.forall₂_map_left_iff, List.forall₂_map_right_iff]
    exact h.imp fun _ _ hf => hf.neg
  obtain ⟨b, t, hb, ht, hans⟩ := (conj (by simpa using hne) hneg).neg.answers
  refine ⟨?_, b, t, ?_, ?_, ?_⟩
  · intro n
    simp only [Filter.predicate, bind, StateT.bind, predicates_of_standsFor h]
    rfl
  · rw [evaluate_disj, hb]
  · rw [Predicate.truth?_disj, ht]
  · simpa only [conditionsUnder, conditionsUnderOf_map_neg, Bool.not_not] using hans

theorem exists_forall₂_standsFor (h : ∀ f ∈ fs, ∃ p, StandsFor k c a row record f p) :
    ∃ ps, List.Forall₂ (StandsFor k c a row record) fs ps := by
  induction fs with
  | nil => exact ⟨[], .nil⟩
  | cons f fs ih =>
      obtain ⟨⟨p, hp⟩, hfs⟩ := List.forall_mem_cons.1 h
      obtain ⟨ps, hps⟩ := ih hfs
      exact ⟨p :: ps, .cons hp hps⟩

/-- Every filter that compares integers stands for a predicate with answers that agree with its
own. -/
theorem ComparesIntegers.exists_standsFor (hf : f.ComparesIntegers c)
    (hrow : ∀ condition ∈ f.conditions,
      record.get condition.field = .ofInt? (row ⟨a, condition.field⟩)) :
    ∃ p, StandsFor k c a row record f p := by
  induction hf with
  | leaf h => exact standsFor_leaf h (hrow _ (by simp [conditions]))
  | conj hne _ ih =>
      obtain ⟨ps, hps⟩ := exists_forall₂_standsFor fun f hf => ih f hf fun condition hc =>
        hrow condition (mem_conditions_conj.2 ⟨f, hf, hc⟩)
      exact ⟨_, .conj hne hps⟩
  | disj hne _ ih =>
      obtain ⟨ps, hps⟩ := exists_forall₂_standsFor fun f hf => ih f hf fun condition hc =>
        hrow condition (mem_conditions_disj.2 ⟨f, hf, hc⟩)
      exact ⟨_, .disj hne hps⟩
  | neg _ ih =>
      obtain ⟨p, hp⟩ := ih hrow
      exact ⟨_, hp.neg⟩
  | all => exact ⟨.constant true, fun _ => rfl, true, .holds, rfl, rfl, Truth.Allows.refl _,
      fun _ _ _ => rfl⟩
  | none => exact ⟨.constant false, fun _ => rfl, false, .fails, rfl, rfl, Truth.Allows.refl _,
      fun _ _ _ => rfl⟩

end Filter

/-- **Admission in memory and selection by the database.** Let a filter compare integers, and let a
row hold what the record has, an integer or nothing. The filter stands for a predicate that has a
truth value on the row. If the filter admits the record, the predicate is not false on the row, and
it is true unless a value that is absent is compared under an odd number of negations; and if the
predicate is true on the row, the filter admits the record. -/
theorem admitted_and_selected (k : Catalog) (c : Collection) (a : Alias) (f : Filter)
    (record : Record) (row : IntegerRow) (hf : f.ComparesIntegers c)
    (hrow : ∀ condition ∈ f.conditions,
      record.get condition.field = .ofInt? (row ⟨a, condition.field⟩)) :
    ∃ p t b, (∀ n, f.predicate k c a n = .ok (p, n)) ∧ p.truth? row = some t ∧
      f.admits record = .ok b ∧
      (b = true → t ≠ .fails ∧ (Filter.NoneAbsent record (f.conditionsUnder false) → t = .holds)) ∧
      (t = .holds → b = true) := by
  obtain ⟨p, hp, b, t, hb, ht, hans⟩ := hf.exists_standsFor (k := k) hrow
  refine ⟨p, t, b, hp, ht, ?_, ?_, ?_⟩
  · rw [Filter.admits, hb]
    cases b <;> rfl
  · rintro rfl
    refine ⟨?_, fun hnone => hans.eq_of_ne false hnone (by decide)⟩
    rintro rfl
    rcases hans.allows with h | h <;> cases h
  · rintro rfl
    cases b with
    | true => rfl
    | false => rcases hans.allows with h | h <;> cases h

namespace Sample

/-- Articles with what is counted about them. -/
def articles : Collection where
  name := "articles"
  table := "articles"
  paranoid := false
  fields := [⟨"id", .uuid, true, false⟩, ⟨"views", .integer, false, true⟩,
    ⟨"likes", .integer, false, true⟩]
  relations := []

/-- A condition on what is counted about an article. -/
def counted (field : String) (operator : Operator) (value : Value) : Filter :=
  .leaf ⟨field, operator, value, none⟩

theorem comparesIntegers_counted {field : String} {operator : Operator} {value : Value}
    (hfield : field = "views" ∨ field = "likes") (h : operator.TakesIntegers value) :
    (counted field operator value).ComparesIntegers articles := by
  rcases hfield with rfl | rfl
  · exact .leaf ⟨(by decide : Text.hasChar '.' "views" = false), rfl, rfl, h⟩
  · exact .leaf ⟨(by decide : Text.hasChar '.' "likes" = false), rfl, rfl, h⟩

/-- An article without five views and with neither one to three likes nor an unknown number. -/
def remarkable : Filter :=
  .conj [counted "views" .neq (.int 5),
    .neg (.disj [counted "likes" .between (.list [.int 1, .int 3]),
      counted "likes" .isNull (.bool true)])]

theorem comparesIntegers_remarkable : remarkable.ComparesIntegers articles := by
  have hviews : (counted "views" .neq (.int 5)).ComparesIntegers articles :=
    comparesIntegers_counted (.inl rfl) ⟨5, rfl⟩
  have hlikes : (counted "likes" .between (.list [.int 1, .int 3])).ComparesIntegers articles :=
    comparesIntegers_counted (.inr rfl) ⟨1, 3, rfl⟩
  have hnull : (counted "likes" .isNull (.bool true)).ComparesIntegers articles :=
    comparesIntegers_counted (.inr rfl) ⟨true, rfl⟩
  refine .conj (by simp) (List.forall_mem_cons.2 ⟨hviews, List.forall_mem_singleton.2 (.neg ?_)⟩)
  exact .disj (by simp) (List.forall_mem_cons.2 ⟨hlikes, List.forall_mem_singleton.2 hnull⟩)

/-- What the row of an article with seven likes holds. -/
def sevenLikes : IntegerRow :=
  fun column => if column.name = "likes" then some 7 else none

/-- It is not the case that an article has five views. -/
def notFiveViews : Filter :=
  .neg (counted "views" .eq (.int 5))

end Sample

/-- Seven likes are remarkable as long as there are not five views, in memory and in the
database. -/
theorem admitted_and_selected_remarkable :
    Sample.remarkable.admits [("likes", .int 7)] = .ok true ∧
      ∃ p, Sample.remarkable.predicate ⟨[Sample.articles]⟩ Sample.articles baseAlias baseAlias =
          .ok (p, baseAlias) ∧ p.truth? Sample.sevenLikes = some .holds := by
  have hadmits : Sample.remarkable.admits [("likes", .int 7)] = .ok true := by rfl
  obtain ⟨p, t, b, hp, ht, hb, h, -⟩ := admitted_and_selected ⟨[Sample.articles]⟩ Sample.articles
    baseAlias Sample.remarkable [("likes", .int 7)] Sample.sevenLikes
    Sample.comparesIntegers_remarkable (by
      intro condition hcondition
      simp [Sample.remarkable, Sample.counted, Filter.conditions, Filter.conditionsOf] at hcondition
      rcases hcondition with rfl | rfl | rfl <;> rfl)
  obtain rfl : true = b := by simpa [hadmits] using hb
  refine ⟨hadmits, p, hp baseAlias, ?_⟩
  rw [ht, (h rfl).2]
  intro condition hcondition
  simp [Sample.remarkable, Sample.counted, Filter.conditionsUnder, Filter.conditionsUnderOf]
    at hcondition
  rcases hcondition with rfl | rfl <;> rfl

/-- Without views an article is admitted as one that does not have five, but its row is not
selected: the predicate is null. And without parts a conjunction admits everything, but stands for
no expression. -/
theorem admitted_but_not_selected :
    (Sample.notFiveViews.ComparesIntegers Sample.articles ∧
      Sample.notFiveViews.admits [] = .ok true ∧
      ∃ p, Sample.notFiveViews.predicate ⟨[Sample.articles]⟩ Sample.articles baseAlias baseAlias =
        .ok (p, baseAlias) ∧ p.truth? (fun _ => none) = some .unknown) ∧
    (Filter.conj []).admits [] = .ok true ∧
      ∃ p, (Filter.conj []).predicate ⟨[Sample.articles]⟩ Sample.articles baseAlias baseAlias =
        .ok (p, baseAlias) ∧ p.truth? (fun _ => none) = none :=
  ⟨⟨.neg (Sample.comparesIntegers_counted (.inl rfl) ⟨5, rfl⟩), rfl, _, rfl, rfl⟩, rfl, _, rfl, rfl⟩

end Warden
