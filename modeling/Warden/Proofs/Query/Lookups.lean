import Warden.Proofs.Query.Structure
import Warden.Proofs.Sql.Joins

/-! # Searches for rows behind joins

Beside its base table, a statement has tables where it searches for the rows behind a relation: in
its conditions, its outputs and its order, and inside such searches again. **`Select.lookups`**
lists these searches. Each of them stands in the text of the statement (`standsIn_select`).

* The conditions of a search can be read if there is something in each of their groups, and then
  they are read as what the join demands and the conditions (`Lookup.readMembers_clause_iff`).
* **`Lookup.Made`** is what holds of a search because of the way in which it was made: it leads
  along a relation, and what is asked of its rows is the predicate of a filter.
-/

namespace Warden.Sql

/-- A search for the rows behind a join. -/
structure Lookup where
  /-- The join. -/
  join : Join
  /-- What must hold of the rows, apart from what the join demands. -/
  conditions : List Predicate

/-! ## The searches of a statement -/

namespace Predicate

mutual

/-- The searches in a predicate. -/
def lookups : Predicate → List Lookup
  | constant _ | test _ => []
  | conj ps | disj ps => lookupsAll ps
  | neg p => lookups p
  | exist j p => ⟨j, [p]⟩ :: lookups p

/-- The searches in several predicates. -/
def lookupsAll : List Predicate → List Lookup
  | [] => []
  | p :: ps => lookups p ++ lookupsAll ps

end

variable {l : Lookup} {ps : List Predicate}

theorem mem_lookupsAll : l ∈ lookupsAll ps ↔ ∃ p ∈ ps, l ∈ p.lookups := by
  induction ps with
  | nil => simp [lookupsAll]
  | cons p ps ih => rw [lookupsAll, List.mem_append, ih, List.exists_mem_cons_iff]

theorem lookupsAll_append (ps qs : List Predicate) :
    lookupsAll (ps ++ qs) = lookupsAll ps ++ lookupsAll qs := by
  induction ps with
  | nil => rfl
  | cons p ps ih => rw [List.cons_append, lookupsAll, lookupsAll, ih, List.append_assoc]

end Predicate

namespace Output

mutual

/-- The searches in an output. -/
def lookups : Output → List Lookup
  | column _ | group _ | aggregate _ _ => []
  | related j members condition _ =>
    ⟨j, condition⟩ :: (lookupsAll members ++ Predicate.lookupsAll condition)

/-- The searches in named members. -/
def lookupsAll : List (String × Output) → List Lookup
  | [] => []
  | (_, o) :: rest => lookups o ++ lookupsAll rest

end

variable {l : Lookup} {members : List (String × Output)}

theorem mem_lookupsAll : l ∈ lookupsAll members ↔ ∃ entry ∈ members, l ∈ entry.2.lookups := by
  induction members with
  | nil => simp [lookupsAll]
  | cons entry members ih => rw [lookupsAll, List.mem_append, ih, List.exists_mem_cons_iff]

end Output

/-- The searches in what rows are sorted by. -/
def Sorting.lookups : Sorting → List Lookup
  | .column _ => []
  | .behind j s => ⟨j, []⟩ :: s.lookups

/-- The searches in a key of an order. -/
def Order.lookups : Order → List Lookup
  | .row s _ => s.lookups
  | .rank _ _ | .output _ _ => []

/-- The searches in a statement that reads rows. -/
def Select.lookups (s : Select) : List Lookup :=
  Output.lookupsAll s.outputs ++ Predicate.lookupsAll s.conditions ++ s.order.flatMap Order.lookups

/-! ## Their texts -/

namespace Lookup

/-- What stands behind the WHERE of the search. -/
def clause (l : Lookup) : String :=
  (Fragment.joined " AND " (l.join.onFragments ++ Predicate.writeAll l.conditions)).sql

/-- The search from its tables on. -/
def sql (l : Lookup) : String :=
  " FROM " ++ l.join.fromSql ++ " WHERE " ++ l.clause

/-- What stands behind the conditions of a search: it is in parentheses, and some searches are for
one row only. -/
def endings : List String :=
  [")", " LIMIT 1)"]

/-- The search stands in the text, up to the end of its conditions. -/
def StandsIn (l : Lookup) (text : String) : Prop :=
  ∃ before ending after, ending ∈ endings ∧ text = before ++ l.sql ++ ending ++ after

variable {l : Lookup} {f : Fragment}

theorem StandsIn.within {text : String} (h : l.StandsIn text) (before after : String) :
    l.StandsIn (before ++ text ++ after) := by
  obtain ⟨first, ending, last, hending, rfl⟩ := h
  refine ⟨before ++ first, ending, last ++ after, hending, ?_⟩
  simp only [String.append_assoc]

theorem StandsIn.append_left (h : l.StandsIn f.sql) (g : Fragment) : l.StandsIn (g ++ f).sql := by
  have hwithin := h.within g.sql ""
  rwa [String.append_empty, ← Fragment.sql_append] at hwithin

theorem StandsIn.append_right (h : l.StandsIn f.sql) (g : Fragment) :
    l.StandsIn (f ++ g).sql := by
  have hwithin := h.within "" g.sql
  rwa [String.empty_append, ← Fragment.sql_append] at hwithin

theorem StandsIn.parenthesized (h : l.StandsIn f.sql) :
    l.StandsIn (Fragment.parenthesized f).sql :=
  (h.append_left _).append_right _

theorem StandsIn.joined {separator : String} {fs : List Fragment} (hf : f ∈ fs)
    (h : l.StandsIn f.sql) : l.StandsIn (Fragment.joined separator fs).sql := by
  induction fs with
  | nil => cases hf
  | cons g fs ih =>
      cases fs with
      | nil =>
          rw [Fragment.joined_singleton, ← List.mem_singleton.1 hf]
          exact h
      | cons g' fs =>
          rw [Fragment.joined_cons_cons]
          rcases List.mem_cons.1 hf with rfl | hf
          · exact (h.append_right _).append_right _
          · exact (ih hf).append_left _

/-- A search stands where it ends. -/
theorem standsIn_behind (l : Lookup) (before : Fragment) {ending : String}
    (hending : ending ∈ endings) : l.StandsIn
      (before ++ Predicate.writeBehind l.join (Predicate.writeAll l.conditions) ++
        .ofText ending).sql := by
  refine ⟨before.sql, ending, "", hending, ?_⟩
  simp [Predicate.writeBehind, sql, clause, String.append_assoc]

/-- What stands in a condition of a search stands in the search. -/
theorem StandsIn.behind {ps : List Predicate} (hf : f ∈ Predicate.writeAll ps)
    (h : l.StandsIn f.sql) (j : Join) :
    l.StandsIn (Predicate.writeBehind j (Predicate.writeAll ps)).sql :=
  (h.joined (List.mem_append_right _ hf)).append_left _

end Lookup

open Lookup

variable {l : Lookup}

namespace Predicate

mutual

/-- A search in a predicate stands in its text. -/
theorem standsIn_write {p : Predicate} (h : l ∈ p.lookups) : l.StandsIn p.write.sql := by
  match p with
  | .constant _ | .test _ => cases h
  | .conj ps =>
      obtain ⟨f, hf, hl⟩ := exists_standsIn_writeAll h
      exact (hl.joined hf).parenthesized
  | .disj ps =>
      obtain ⟨f, hf, hl⟩ := exists_standsIn_writeAll h
      exact (hl.joined hf).parenthesized
  | .neg p =>
      have hinner : l.StandsIn p.write.sql := standsIn_write h
      exact hinner.parenthesized.append_left _
  | .exist j p =>
      rcases List.mem_cons.1 h with rfl | h
      · exact standsIn_behind ⟨j, [p]⟩ _ (by decide)
      · have hbehind : l.StandsIn (writeBehind j (writeAll [p])).sql :=
          (standsIn_write h).behind List.mem_cons_self j
        exact (hbehind.append_left _).append_right _

/-- A search in one of several predicates stands in the text of one of them. -/
theorem exists_standsIn_writeAll {ps : List Predicate} (h : l ∈ lookupsAll ps) :
    ∃ f ∈ writeAll ps, l.StandsIn f.sql := by
  match ps with
  | [] => cases h
  | p :: ps =>
      rw [writeAll, List.exists_mem_cons_iff]
      rcases List.mem_append.1 h with h | h
      · exact .inl (standsIn_write h)
      · exact .inr (exists_standsIn_writeAll h)

end

end Predicate

namespace Output

/-- What stands in the search for the rows behind a join, or in their members, stands in the output
of these rows. -/
theorem standsIn_related {j : Join} {members : List (String × Output)}
    {condition : List Predicate} (single : Bool)
    (h : l.StandsIn (Fragment.joined ", " (writeMembers members)).sql ∨
      l.StandsIn (Predicate.writeBehind j (Predicate.writeAll condition)).sql) :
    l.StandsIn (related j members condition single).write.sql := by
  rcases h with hmembers | hbehind
  · have hopened := hmembers.append_left (.ofText "json_build_object(")
    have hobject := hopened.append_right (.ofText ")")
    cases single with
    | true => exact ((hobject.append_left _).append_right _).append_right _
    | false => exact (((hobject.append_left _).append_right _).append_right _).append_right _
  · cases single with
    | true => exact (hbehind.append_left _).append_right _
    | false => exact (hbehind.append_left _).append_right _

mutual

/-- A search in an output stands in its text. -/
theorem standsIn_write {o : Output} (h : l ∈ o.lookups) : l.StandsIn o.write.sql := by
  match o with
  | .column _ | .group _ | .aggregate _ _ => cases h
  | .related j members condition single =>
      rcases List.mem_cons.1 h with rfl | h
      · cases single with
        | true => exact standsIn_behind ⟨j, condition⟩ _ (by decide)
        | false => exact standsIn_behind ⟨j, condition⟩ _ (by decide)
      · rcases List.mem_append.1 h with h | h
        · obtain ⟨f, hf, hl⟩ := exists_standsIn_writeMembers h
          exact standsIn_related single (.inl (hl.joined hf))
        · obtain ⟨f, hf, hl⟩ := Predicate.exists_standsIn_writeAll h
          exact standsIn_related single (.inr (hl.behind hf j))

/-- A search in one of several members stands in the text of one of them. -/
theorem exists_standsIn_writeMembers {members : List (String × Output)}
    (h : l ∈ lookupsAll members) : ∃ f ∈ writeMembers members, l.StandsIn f.sql := by
  match members with
  | [] => cases h
  | (name, o) :: members =>
      rw [writeMembers, List.exists_mem_cons_iff]
      rcases List.mem_append.1 h with h | h
      · exact .inl ((standsIn_write h).append_left _)
      · exact .inr (exists_standsIn_writeMembers h)

end

end Output

/-- A search in what rows are sorted by stands in its text. -/
theorem standsIn_sorting {s : Sorting} (h : l ∈ s.lookups) : l.StandsIn s.write.sql := by
  induction s with
  | column c => cases h
  | behind j s ih =>
      rcases List.mem_cons.1 h with rfl | h
      · exact standsIn_behind ⟨j, []⟩ _ (by decide)
      · exact (((ih h).append_left _).append_right _).append_right _

theorem standsIn_order {o : Order} (h : l ∈ o.lookups) : l.StandsIn o.write.sql := by
  cases o with
  | row s direction => exact (standsIn_sorting h).append_right _
  | rank | output => cases h

/-- A search in the conditions of a statement stands in its text. -/
theorem standsIn_of_baseIn {table statement : String} {ps : List Predicate}
    (hbase : BaseIn table (Predicate.writeConditions ps).sql statement)
    (h : l ∈ Predicate.lookupsAll ps) : l.StandsIn statement := by
  obtain ⟨f, hf, hl⟩ := Predicate.exists_standsIn_writeAll h
  have hclause : l.StandsIn (Predicate.writeConditions ps).sql := hl.joined hf
  obtain ⟨before, between, after, rfl, -, -⟩ := hbase
  exact hclause.within _ _

/-- **The searches of a statement that reads rows stand in its text.** -/
theorem standsIn_select {s : Select} (h : l ∈ s.lookups) : l.StandsIn s.write.sql := by
  rcases List.mem_append.1 h with h | horder
  · rcases List.mem_append.1 h with houtput | hcondition
    · obtain ⟨entry, hentry, hl⟩ := Output.mem_lookupsAll.1 houtput
      have hlabelled : l.StandsIn (entry.2.writeLabelled entry.1).sql :=
        (Output.standsIn_write hl).append_right _
      have houtputs : l.StandsIn (Fragment.joined ", "
          (s.outputs.map fun entry => entry.2.writeLabelled entry.1)).sql :=
        hlabelled.joined (List.mem_map_of_mem hentry)
      exact (((((houtputs.append_left _).append_right _).append_right _).append_right
        _).append_right _).append_right _
    · exact standsIn_of_baseIn (baseIn_select s) hcondition
  · obtain ⟨o, ho, hl⟩ := List.mem_flatMap.1 horder
    have hkeys : l.StandsIn (Fragment.joined ", " (s.order.map Order.write)).sql :=
      (standsIn_order hl).joined (List.mem_map_of_mem ho)
    have hne : ¬ s.order.isEmpty = true := by
      rw [List.isEmpty_iff]
      exact List.ne_nil_of_mem ho
    rw [Select.write, if_neg hne]
    exact (((hkeys.append_left _).append_left _).append_right _).append_right _

/-! ## Their conditions -/

/-- The property holds of the names in the search, and its casts are known. -/
structure Lookup.Over (P : String → Prop) (l : Lookup) : Prop where
  /-- The property holds of the names in the join. -/
  join : l.join.Over P
  /-- It holds of the names in the conditions. -/
  conditions : ∀ p ∈ l.conditions, p.Over P

/-- The conditions of a search can be read if there is something in each of their groups, and then
as what the join demands and the conditions. -/
theorem Lookup.readMembers_clause_iff {P : String → Prop} (h : l.Over P) {rs : List Reading} :
    readMembers l.clause = some rs ↔
      (∀ p ∈ l.conditions, p.Filled) ∧
        rs = l.join.onReadings ++ l.conditions.map Predicate.reading :=
  readMembers_joined_iff (reads_onFragments h.join) h.conditions (by simp [Join.onReadings])

/-! ## How they are made -/

/-- The join was made along a relation, to the rows of the collection. -/
def Join.LeadsTo (k : Catalog) (j : Join) (target : Collection) : Prop :=
  ∃ c source name n m, joinRelation k c source name n = .ok ((j, target), m)

/-- The search leads along a relation, and what is asked of the rows is made of filters; if these
are folded, there is something in each group. -/
structure Lookup.Made (k : Catalog) (folded : Prop) (l : Lookup) : Prop where
  /-- It leads to the rows of a collection. -/
  join : ∃ target, l.join.LeadsTo k target
  /-- Its casts are known. -/
  casts : l.Over fun _ => True
  /-- There is something in each of its groups. -/
  filled : folded → ∀ p ∈ l.conditions, p.Filled

variable {k : Catalog} {c target : Collection} {n m : Alias} {p : Predicate} {j : Join}

theorem Lookup.Made.mono {folded folded' : Prop} (h : l.Made k folded)
    (hfolded : folded' → folded) : l.Made k folded' :=
  ⟨h.join, h.casts, fun h' => h.filled (hfolded h')⟩

/-- A search along a relation for rows of which predicates of filters hold is made. -/
theorem made_of_joinRelation {source : Alias} {name : String} {ps : List Predicate} {folded : Prop}
    (hjoin : joinRelation k c source name n = .ok ((j, target), m))
    (hover : ∀ p ∈ ps, p.Over fun _ => True) (hfilled : folded → ∀ p ∈ ps, p.Filled) :
    (Lookup.mk j ps).Made k folded where
  join := ⟨target, c, source, name, n, m, hjoin⟩
  casts := ⟨(over_joinRelation k.over_true c.over_true hjoin).1, hover⟩
  filled := hfilled

/-- So is one for all of them. -/
theorem made_unconditional {source : Alias} {name : String} {folded : Prop}
    (hjoin : joinRelation k c source name n = .ok ((j, target), m)) :
    (Lookup.mk j []).Made k folded :=
  made_of_joinRelation hjoin (List.forall_mem_nil _) fun _ => List.forall_mem_nil _

theorem made_pathPredicate {condition : Condition} {path : List String} {row : Alias}
    (h : pathPredicate k condition path c row n = .ok (p, m)) : ∀ l ∈ p.lookups, l.Made k True := by
  induction path, c, row using pathPredicate.induct generalizing n m p with
  | case1 c row => cases h
  | case2 name c row =>
      rw [pathPredicate, Build.lift_eq_ok] at h
      obtain ⟨_, _, -, -, h⟩ := exists_operand_of_fieldPredicate h.1
      obtain ⟨b, rfl⟩ | ⟨t, rfl, -⟩ := exists_test_of_operatorPredicate h
      · exact List.forall_mem_nil _
      · exact List.forall_mem_nil _
  | case3 relation rest c row hrest ih =>
      rw [pathPredicate] at h
      · obtain ⟨⟨j, target⟩, _, hjoin, h⟩ := Build.bind_eq_ok.1 h
        obtain ⟨q, _, hq, h⟩ := Build.bind_eq_ok.1 h
        obtain ⟨rfl, -⟩ := Build.pure_eq_ok.1 h
        have hover : ∀ p ∈ [q], p.Over fun _ => True :=
          List.forall_mem_singleton.2 (over_pathPredicate k.over_true target.over_true hq)
        have hfilled : ∀ p ∈ [q], p.Filled :=
          List.forall_mem_singleton.2 (readsAs_pathPredicate hq).1
        have hself : (Lookup.mk j [q]).Made k True :=
          made_of_joinRelation hjoin hover fun _ => hfilled
        exact List.forall_mem_cons.2 ⟨hself, ih j target hq⟩
      · exact hrest

/-- What holds of the searches in each filter's predicate holds of those in all of them. -/
theorem made_predicates {fs : List Filter} {ps : List Predicate} {row : Alias} {folded : Prop}
    (hf : ∀ f ∈ fs, ∀ {n m : Alias} {p : Predicate}, f.predicate k c row n = .ok (p, m) →
      ∀ l ∈ p.lookups, l.Made k folded)
    (h : Filter.predicates k c row fs n = .ok (ps, m)) :
    ∀ l ∈ Predicate.lookupsAll ps, l.Made k folded := by
  intro l hl
  obtain ⟨p, hp, hl⟩ := Predicate.mem_lookupsAll.1 hl
  have hmade := forall_mem_predicates hf h p hp
  exact hmade l hl

/-- The searches in the predicate of a filter are made of the filter. -/
theorem made_predicate {f : Filter} {row : Alias} (h : f.predicate k c row n = .ok (p, m)) :
    ∀ l ∈ p.lookups, l.Made k f.Branching := by
  induction f generalizing n m p with
  | leaf condition =>
      intro l hl
      exact (made_pathPredicate h l hl).mono fun _ => trivial
  | conj fs ih =>
      obtain ⟨ps, _, hps, h⟩ := Build.bind_eq_ok.1 h
      obtain ⟨rfl, -⟩ := Build.pure_eq_ok.1 h
      have hchild : ∀ f ∈ fs, (Filter.conj fs).Branching → f.Branching := by
        intro f hf hfs
        cases hfs with
        | conj _ hchildren => exact hchildren f hf
      refine made_predicates ?_ hps
      intro f hf _ _ q hq l hl
      exact (ih f hf hq l hl).mono (hchild f hf)
  | disj fs ih =>
      obtain ⟨ps, _, hps, h⟩ := Build.bind_eq_ok.1 h
      obtain ⟨rfl, -⟩ := Build.pure_eq_ok.1 h
      have hchild : ∀ f ∈ fs, (Filter.disj fs).Branching → f.Branching := by
        intro f hf hfs
        cases hfs with
        | disj _ hchildren => exact hchildren f hf
      refine made_predicates ?_ hps
      intro f hf _ _ q hq l hl
      exact (ih f hf hq l hl).mono (hchild f hf)
  | neg f ih =>
      obtain ⟨q, _, hq, h⟩ := Build.bind_eq_ok.1 h
      obtain ⟨rfl, -⟩ := Build.pure_eq_ok.1 h
      intro l hl
      refine (ih hq l hl).mono ?_
      intro hnegation
      cases hnegation with
      | neg hf => exact hf
  | all | none =>
      obtain ⟨rfl, -⟩ := Build.pure_eq_ok.1 h
      exact List.forall_mem_nil _

/-- A search along a relation for rows that match a filter, and the searches inside of it, are made
of the filter. -/
theorem made_exist {source : Alias} {name : String} {f : Filter} {l' m' : Alias}
    (hjoin : joinRelation k c source name n = .ok ((j, target), m))
    (hp : f.predicate k target j.tableAlias l' = .ok (p, m')) :
    ∀ l ∈ Lookup.mk j [p] :: p.lookups, l.Made k f.Branching := by
  have hover : ∀ q ∈ [p], q.Over fun _ => True :=
    List.forall_mem_singleton.2 (over_predicate k.over_true target.over_true hp)
  have hfilled : f.Branching → ∀ q ∈ [p], q.Filled := by
    intro hf
    exact List.forall_mem_singleton.2 (readsAs_predicate hf hp).1
  exact List.forall_mem_cons.2 ⟨made_of_joinRelation hjoin hover hfilled, made_predicate hp⟩

theorem made_relationPredicates {fs : Named Filter} {ps : List Predicate}
    (h : relationPredicates k c fs n = .ok (ps, m)) :
    ∀ p ∈ ps, ∀ l ∈ p.lookups, l.Made k (∀ entry ∈ fs, entry.2.Branching) := by
  induction fs generalizing n m ps with
  | nil =>
      obtain ⟨rfl, -⟩ := Build.pure_eq_ok.1 h
      exact List.forall_mem_nil _
  | cons entry fs ih =>
      obtain ⟨name, f⟩ := entry
      rw [relationPredicates] at h
      have hrest {qs : List Predicate} {n m : Alias}
          (h : relationPredicates k c fs n = .ok (qs, m)) :
          ∀ q ∈ qs, ∀ l ∈ q.lookups, l.Made k (∀ entry ∈ (name, f) :: fs, entry.2.Branching) := by
        intro q hq l hl
        exact (ih h q hq l hl).mono fun hfs => (List.forall_mem_cons.1 hfs).2
      split at h
      · exact hrest h
      · obtain ⟨⟨j, target⟩, _, hjoin, h⟩ := Build.bind_eq_ok.1 h
        obtain ⟨q, _, hq, h⟩ := Build.bind_eq_ok.1 h
        obtain ⟨qs, _, hqs, h⟩ := Build.bind_eq_ok.1 h
        obtain ⟨rfl, -⟩ := Build.pure_eq_ok.1 h
        refine List.forall_mem_cons.2 ⟨?_, hrest hqs⟩
        intro l hl
        exact (made_exist hjoin hq l hl).mono fun hfs => (List.forall_mem_cons.1 hfs).1

/-- A word is not searched for behind relations. -/
theorem lookups_searchPredicate (search : Search) : (searchPredicate search).lookups = [] := by
  unfold searchPredicate
  split
  · rfl
  · rw [List.eq_nil_iff_forall_not_mem]
    intro l hl
    obtain ⟨p, hp, hl⟩ := Predicate.mem_lookupsAll.1 hl
    obtain ⟨name, -, rfl⟩ := List.mem_map.1 hp
    cases hl

/-- The searches in the output of related rows and in those beside it are that for the rows, those
in the condition on them and in their members, and those in the others. -/
theorem made_related {name : String} {members others : List (String × Output)}
    {condition : List Predicate} {single : Bool} {folded : Prop}
    (hself : ∀ l ∈ Lookup.mk j condition :: Predicate.lookupsAll condition, l.Made k folded)
    (hmembers : ∀ l ∈ Output.lookupsAll members, l.Made k folded)
    (hothers : ∀ l ∈ Output.lookupsAll others, l.Made k folded) :
    ∀ l ∈ Output.lookupsAll ((name, .related j members condition single) :: others),
      l.Made k folded := by
  obtain ⟨hrows, hcondition⟩ := List.forall_mem_cons.1 hself
  have hinner := List.forall_mem_append.2 ⟨hmembers, hcondition⟩
  exact List.forall_mem_append.2 ⟨List.forall_mem_cons.2 ⟨hrows, hinner⟩, hothers⟩

mutual

/-- The searches in the outputs of a selection are made of the conditions on related rows. -/
theorem made_selectionOutputs {c : Collection} {row n m : Alias} {conditions : Named Filter}
    {s : Selection} {outputs : List (String × Output)}
    (h : selectionOutputs k c row conditions s n = .ok (outputs, m)) :
    ∀ l ∈ Output.lookupsAll outputs, l.Made k (∀ entry ∈ conditions, entry.2.Branching) := by
  match s with
  | .node columns relations =>
      obtain ⟨related, _, hrelated, h⟩ := Build.bind_eq_ok.1 h
      obtain ⟨rfl, -⟩ := Build.pure_eq_ok.1 h
      intro l hl
      obtain ⟨entry, hentry, hl⟩ := Output.mem_lookupsAll.1 hl
      rcases List.mem_append.1 hentry with hentry | hentry
      · obtain ⟨name, -, rfl⟩ := List.mem_map.1 hentry
        cases hl
      · have hinner : l ∈ Output.lookupsAll related :=
          Output.mem_lookupsAll.2 ⟨entry, hentry, hl⟩
        exact made_relationOutputs relations hrelated l hinner

/-- The searches in the outputs behind relations are made of the conditions on their rows. -/
theorem made_relationOutputs {c : Collection} {row n m : Alias} {conditions : Named Filter}
    (relations : List (String × Selection)) {outputs : List (String × Output)}
    (h : relationOutputs k c row conditions relations n = .ok (outputs, m)) :
    ∀ l ∈ Output.lookupsAll outputs, l.Made k (∀ entry ∈ conditions, entry.2.Branching) := by
  match relations with
  | [] =>
      obtain ⟨rfl, -⟩ := Build.pure_eq_ok.1 h
      exact List.forall_mem_nil _
  | (name, s) :: relations =>
      rw [relationOutputs] at h
      cases hr : c.relation? name with
      | none =>
          rw [hr] at h
          cases h
      | some r =>
          rw [hr] at h
          obtain ⟨⟨j, target⟩, _, hjoin, h⟩ := Build.bind_eq_ok.1 h
          obtain ⟨members, _, hmembers, h⟩ := Build.bind_eq_ok.1 h
          -- conditions are on relations of the base rows only: there are none further behind
          have hmember : ∀ l ∈ Output.lookupsAll members,
              l.Made k (∀ entry ∈ conditions, entry.2.Branching) := by
            intro l hl
            exact (made_selectionOutputs hmembers l hl).mono fun _ => List.forall_mem_nil _
          -- whatever the condition on the related rows is made of
          have hrest {condition : List Predicate} {n : Alias}
              (hcondition : ∀ l ∈ Lookup.mk j condition :: Predicate.lookupsAll condition,
                l.Made k (∀ entry ∈ conditions, entry.2.Branching))
              (h : (do
                return (name, Output.related j members condition r.isToOne) ::
                  (← relationOutputs k c row conditions relations) : Build _) n =
                    .ok (outputs, m)) :
              ∀ l ∈ Output.lookupsAll outputs,
                l.Made k (∀ entry ∈ conditions, entry.2.Branching) := by
            obtain ⟨others, _, hothers, h⟩ := Build.bind_eq_ok.1 h
            obtain ⟨rfl, -⟩ := Build.pure_eq_ok.1 h
            exact made_related hcondition hmember (made_relationOutputs relations hothers)
          have hnone : ∀ l ∈ Lookup.mk j [] :: Predicate.lookupsAll [],
              l.Made k (∀ entry ∈ conditions, entry.2.Branching) :=
            List.forall_mem_singleton.2 (made_unconditional hjoin)
          cases hf : Named.find? conditions name with
          | none =>
              rw [hf] at h
              exact hrest hnone h
          | some f =>
              rw [hf] at h
              by_cases hall : f.isAll = true
              · simp only [hall, if_true] at h
                exact hrest hnone h
              · simp only [hall] at h
                obtain ⟨condition, _, hcondition, h⟩ := Build.bind_eq_ok.1 h
                obtain ⟨p, hp, rfl⟩ := Build.map_eq_ok.1 hcondition
                refine hrest ?_ h
                intro l hl
                rw [Predicate.lookupsAll, Predicate.lookupsAll, List.append_nil] at hl
                exact (made_exist hjoin hp l hl).mono fun hconditions =>
                  hconditions _ (Named.mem_of_find? hf)

end

/-- The searches in what rows are sorted by have no conditions of their own. -/
theorem made_sorting {path : List String} {row : Alias} {s : Sorting}
    (h : sorting k path c row n = .ok (s, m)) : ∀ l ∈ s.lookups, l.Made k True := by
  induction path, c, row using sorting.induct generalizing n m s with
  | case1 c row =>
      obtain ⟨rfl, -⟩ := Build.pure_eq_ok.1 h
      exact List.forall_mem_nil _
  | case2 name c row =>
      obtain ⟨rfl, -⟩ := Build.pure_eq_ok.1 h
      exact List.forall_mem_nil _
  | case3 relation rest c row hrest ih =>
      rw [sorting] at h
      · obtain ⟨⟨j, target⟩, _, hjoin, h⟩ := Build.bind_eq_ok.1 h
        obtain ⟨behind, _, hbehind, h⟩ := Build.bind_eq_ok.1 h
        obtain ⟨rfl, -⟩ := Build.pure_eq_ok.1 h
        exact List.forall_mem_cons.2 ⟨made_unconditional hjoin, ih j target hbehind⟩
      · exact hrest

theorem made_sortOrders {sort : List SortKey} {orders : List Order}
    (h : sortOrders k c sort n = .ok (orders, m)) :
    ∀ o ∈ orders, ∀ l ∈ o.lookups, l.Made k True := by
  induction sort generalizing n m orders with
  | nil =>
      obtain ⟨rfl, -⟩ := Build.pure_eq_ok.1 h
      exact List.forall_mem_nil _
  | cons key sort ih =>
      obtain ⟨s, _, hs, h⟩ := Build.bind_eq_ok.1 h
      obtain ⟨rest, _, hrest, h⟩ := Build.bind_eq_ok.1 h
      obtain ⟨rfl, -⟩ := Build.pure_eq_ok.1 h
      exact List.forall_mem_cons.2 ⟨made_sorting hs, ih hrest⟩

end Warden.Sql
