import Warden.Proofs.Query.Scopes

/-! # The numbers of tables

A construction that numbers tables gives them the numbers after the one given last, in the order of
its searches and without a gap (**`Numbers`**). Since each construction goes on where the one before
it ended (`Numbers.append`), no number is given twice in a statement. For every part of a plan it is
shown here that its tables are numbered in this way, and that the part is about the row it was made
for. -/

namespace Warden.Sql

/-! ## Numbers in a row -/

/-- These are the numbers after the first one, up to the last one. -/
structure Numbers (first last : Alias) (as : List Alias) : Prop where
  /-- The last one is as far away as there are numbers. -/
  last : last = first + as.length
  /-- They stand in order and without a gap. -/
  numbers : as = List.range' (first + 1) as.length

namespace Numbers

variable {n l m : Alias} {as bs : List Alias}

theorem nil (n : Alias) : Numbers n n [] := ⟨rfl, rfl⟩

/-- Numbers go on where others end. -/
theorem append (has : Numbers n l as) (hbs : Numbers l m bs) : Numbers n m (as ++ bs) := by
  have hlast : l = n + as.length := has.last
  have hstart : l + 1 = n + 1 + as.length := by rw [hlast, Nat.add_right_comm]
  constructor
  · rw [hbs.last, hlast, List.length_append, Nat.add_assoc]
  · calc as ++ bs
        = List.range' (n + 1) as.length ++ List.range' (n + 1 + as.length) bs.length := by
          rw [← has.numbers, ← hstart, ← hbs.numbers]
      _ = List.range' (n + 1) (as ++ bs).length := by
          rw [List.range'_append_1, List.length_append]

/-- The base table and the tables numbered after it are all different. -/
theorem nodup (h : Numbers baseAlias m as) : (baseAlias :: as).Nodup := by
  have hall : baseAlias :: as = List.range' baseAlias (as.length + 1) := by
    rw [List.range'_succ, ← h.numbers]
  rw [hall]
  exact List.nodup_range'

end Numbers

/-! ## Joins -/

variable {k : Catalog} {c target : Collection} {n m row : Alias} {j : Join}

theorem freshAlias_eq_ok {a l : Alias} (h : freshAlias n = .ok (a, l)) : a = n + 1 ∧ l = n + 1 := by
  cases h
  exact ⟨rfl, rfl⟩

/-- **A join leads from the row it was made for**, and its tables have the next numbers: the table
it leads to the first one of them, and the one in between the second one. -/
theorem linksFrom_joinRelation {name : String}
    (h : joinRelation k c row name n = .ok ((j, target), m)) :
    j.LinksFrom row ∧ Numbers n m j.aliases := by
  unfold joinRelation at h
  cases hr : c.relation? name with
  | none =>
      rw [hr] at h
      cases h
  | some r =>
      rw [hr] at h
      obtain ⟨target', _, htarget, h⟩ := Build.bind_eq_ok.1 h
      obtain ⟨-, rfl⟩ := Build.lift_eq_ok.1 htarget
      obtain ⟨a, l, ha, h⟩ := Build.bind_eq_ok.1 h
      obtain ⟨rfl, rfl⟩ := freshAlias_eq_ok ha
      cases htype : r.type with
      | manyToMany =>
          simp only [htype, Build.bind_eq_ok, Build.lift_eq_ok, Build.pure_eq_ok,
            Prod.mk.injEq] at h
          obtain ⟨b, _, hb, table, _, ⟨-, rfl⟩, targetKey, _, ⟨-, rfl⟩, sourceKey, _, ⟨-, rfl⟩,
            _, _, ⟨rfl, rfl⟩, ⟨rfl, rfl⟩, rfl⟩ := h
          obtain ⟨rfl, rfl⟩ := freshAlias_eq_ok hb
          exact ⟨.through _ rfl ⟨rfl, rfl⟩ ⟨rfl, rfl⟩, rfl, rfl⟩
      | oneToMany =>
          simp only [htype, Build.bind_eq_ok, Build.lift_eq_ok, Build.pure_eq_ok,
            Prod.mk.injEq] at h
          obtain ⟨key, _, ⟨-, rfl⟩, _, _, ⟨rfl, rfl⟩, ⟨rfl, rfl⟩, rfl⟩ := h
          exact ⟨.direct rfl ⟨rfl, rfl⟩, rfl, rfl⟩
      | manyToOne | oneToOne =>
          simp only [htype, Build.bind_eq_ok, Build.lift_eq_ok, Build.pure_eq_ok,
            Prod.mk.injEq] at h
          obtain ⟨key, _, ⟨-, rfl⟩, _, _, ⟨rfl, rfl⟩, ⟨rfl, rfl⟩, rfl⟩ := h
          exact ⟨.direct rfl ⟨rfl, rfl⟩, rfl, rfl⟩

/-! ## Predicates of filters -/

variable {p : Predicate}

/-- The predicate of an operator is about the row of its operand, and searches for nothing. -/
theorem at_operatorPredicate {op : Operator} {o : Operand} {family : TypeFamily} {v : Value}
    (hrow : o.column.tableAlias = row) (h : operatorPredicate op o family v = .ok p) :
    p.At row ∧ p.lookups = [] := by
  obtain ⟨b, rfl⟩ | ⟨t, rfl, rfl⟩ := exists_test_of_operatorPredicate h
  · exact ⟨.constant b, rfl⟩
  · exact ⟨.test t hrow, rfl⟩

/-- What is asked of the rows behind a join that leads from a row is asked of this row. -/
theorem at_exist {name : String} {l : Alias}
    (hjoin : joinRelation k c row name n = .ok ((j, target), l))
    (hp : p.At j.tableAlias ∧ Numbers l m (tablesOf p.lookups)) :
    (Predicate.exist j p).At row ∧ Numbers n m (tablesOf (Predicate.exist j p).lookups) := by
  obtain ⟨hlinks, hnumbers⟩ := linksFrom_joinRelation hjoin
  refine ⟨.exist j p hlinks hp.1, ?_⟩
  rw [Predicate.lookups, tablesOf_cons]
  exact hnumbers.append hp.2

theorem at_pathPredicate {condition : Condition} {path : List String}
    (h : pathPredicate k condition path c row n = .ok (p, m)) :
    p.At row ∧ Numbers n m (tablesOf p.lookups) := by
  induction path, c, row using pathPredicate.induct generalizing n m p with
  | case1 c row => cases h
  | case2 name c row =>
      rw [pathPredicate, Build.lift_eq_ok] at h
      obtain ⟨h, rfl⟩ := h
      obtain ⟨_, _, -, -, h⟩ := exists_operand_of_fieldPredicate h
      obtain ⟨hat, hnone⟩ := at_operatorPredicate rfl h
      rw [hnone]
      exact ⟨hat, .nil n⟩
  | case3 relation rest c row hrest ih =>
      rw [pathPredicate] at h
      · obtain ⟨⟨j, target⟩, _, hjoin, h⟩ := Build.bind_eq_ok.1 h
        obtain ⟨q, _, hq, h⟩ := Build.bind_eq_ok.1 h
        obtain ⟨rfl, rfl⟩ := Build.pure_eq_ok.1 h
        exact at_exist hjoin (ih j target hq)
      · exact hrest

/-- What holds of each filter's predicate holds of those of all of them. -/
theorem at_predicates {fs : List Filter} {ps : List Predicate}
    (hf : ∀ f ∈ fs, ∀ {n m : Alias} {p : Predicate}, f.predicate k c row n = .ok (p, m) →
      p.At row ∧ Numbers n m (tablesOf p.lookups))
    (h : Filter.predicates k c row fs n = .ok (ps, m)) :
    (∀ p ∈ ps, p.At row) ∧ Numbers n m (tablesOf (Predicate.lookupsAll ps)) := by
  induction fs generalizing n m ps with
  | nil =>
      obtain ⟨rfl, rfl⟩ := Build.pure_eq_ok.1 h
      exact ⟨List.forall_mem_nil _, .nil n⟩
  | cons f fs ih =>
      obtain ⟨hfirst, hrest⟩ := List.forall_mem_cons.1 hf
      obtain ⟨p, _, hp, h⟩ := Build.bind_eq_ok.1 h
      obtain ⟨qs, _, hqs, h⟩ := Build.bind_eq_ok.1 h
      obtain ⟨rfl, rfl⟩ := Build.pure_eq_ok.1 h
      obtain ⟨hat, hnumbers⟩ := hfirst hp
      obtain ⟨hats, hnumberss⟩ := ih hrest hqs
      refine ⟨List.forall_mem_cons.2 ⟨hat, hats⟩, ?_⟩
      rw [Predicate.lookupsAll, tablesOf_append]
      exact hnumbers.append hnumberss

/-- **The predicate of a filter** is about the row it was made for. -/
theorem at_predicate {f : Filter} (h : f.predicate k c row n = .ok (p, m)) :
    p.At row ∧ Numbers n m (tablesOf p.lookups) := by
  induction f generalizing n m p with
  | leaf condition => exact at_pathPredicate h
  | conj fs ih =>
      obtain ⟨ps, _, hps, h⟩ := Build.bind_eq_ok.1 h
      obtain ⟨rfl, rfl⟩ := Build.pure_eq_ok.1 h
      obtain ⟨hat, hnumbers⟩ := at_predicates ih hps
      exact ⟨.conj ps hat, hnumbers⟩
  | disj fs ih =>
      obtain ⟨ps, _, hps, h⟩ := Build.bind_eq_ok.1 h
      obtain ⟨rfl, rfl⟩ := Build.pure_eq_ok.1 h
      obtain ⟨hat, hnumbers⟩ := at_predicates ih hps
      exact ⟨.disj ps hat, hnumbers⟩
  | neg f ih =>
      obtain ⟨q, _, hq, h⟩ := Build.bind_eq_ok.1 h
      obtain ⟨rfl, rfl⟩ := Build.pure_eq_ok.1 h
      obtain ⟨hat, hnumbers⟩ := ih hq
      exact ⟨.neg q hat, hnumbers⟩
  | all | none =>
      obtain ⟨rfl, rfl⟩ := Build.pure_eq_ok.1 h
      exact ⟨.constant _, .nil n⟩

theorem at_relationPredicates {fs : Named Filter} {ps : List Predicate}
    (h : relationPredicates k c fs n = .ok (ps, m)) :
    (∀ p ∈ ps, p.At baseAlias) ∧ Numbers n m (tablesOf (Predicate.lookupsAll ps)) := by
  induction fs generalizing n m ps with
  | nil =>
      obtain ⟨rfl, rfl⟩ := Build.pure_eq_ok.1 h
      exact ⟨List.forall_mem_nil _, .nil n⟩
  | cons entry fs ih =>
      obtain ⟨name, f⟩ := entry
      rw [relationPredicates] at h
      split at h
      · exact ih h
      · obtain ⟨⟨j, target⟩, _, hjoin, h⟩ := Build.bind_eq_ok.1 h
        obtain ⟨q, _, hq, h⟩ := Build.bind_eq_ok.1 h
        obtain ⟨qs, _, hqs, h⟩ := Build.bind_eq_ok.1 h
        obtain ⟨rfl, rfl⟩ := Build.pure_eq_ok.1 h
        obtain ⟨hat, hnumbers⟩ := at_exist hjoin (at_predicate hq)
        obtain ⟨hats, hnumberss⟩ := ih hqs
        refine ⟨List.forall_mem_cons.2 ⟨hat, hats⟩, ?_⟩
        rw [Predicate.lookupsAll, tablesOf_append]
        exact hnumbers.append hnumberss

/-- A search for a word is about the base row. -/
theorem at_searchPredicate (search : Search) : (searchPredicate search).At baseAlias := by
  unfold searchPredicate
  split
  · exact .constant false
  · exact .disj _ (List.forall_mem_map.2 fun _ _ => .test _ rfl)

/-! ## Outputs of selections -/

/-- The output of related rows is about the row that the join leads from, and the tables of the
search for them are numbered before those in it. -/
theorem at_related {name : String} {members : List (String × Output)}
    {condition : List Predicate} (single : Bool) {l l' : Alias}
    (hjoin : joinRelation k c row name n = .ok ((j, target), l))
    (hmembers : (∀ entry ∈ members, entry.2.At j.tableAlias) ∧
      Numbers l l' (tablesOf (Output.lookupsAll members)))
    (hcondition : (∀ p ∈ condition, p.At j.tableAlias) ∧
      Numbers l' m (tablesOf (Predicate.lookupsAll condition))) :
    (Output.related j members condition single).At row ∧
      Numbers n m (tablesOf (Output.related j members condition single).lookups) := by
  obtain ⟨hlinks, hnumbers⟩ := linksFrom_joinRelation hjoin
  refine ⟨.related j members condition single hlinks hmembers.1 hcondition.1, ?_⟩
  rw [Output.lookups, tablesOf_cons, tablesOf_append]
  exact hnumbers.append (hmembers.2.append hcondition.2)

/-- Columns are searched for nowhere. -/
theorem lookupsAll_columns (row : Alias) (columns : List String)
    (others : List (String × Output)) :
    Output.lookupsAll (columns.map (columnOutput row) ++ others) = Output.lookupsAll others := by
  induction columns with
  | nil => rfl
  | cons name columns ih => exact ih

mutual

/-- **The outputs of a selection** are about the row they were made for. -/
theorem at_selectionOutputs {c : Collection} {row n m : Alias} {conditions : Named Filter}
    {s : Selection} {outputs : List (String × Output)}
    (h : selectionOutputs k c row conditions s n = .ok (outputs, m)) :
    (∀ entry ∈ outputs, entry.2.At row) ∧ Numbers n m (tablesOf (Output.lookupsAll outputs)) := by
  match s with
  | .node columns relations =>
      obtain ⟨related, _, hrelated, h⟩ := Build.bind_eq_ok.1 h
      obtain ⟨rfl, rfl⟩ := Build.pure_eq_ok.1 h
      obtain ⟨hat, hnumbers⟩ := at_relationOutputs relations hrelated
      rw [lookupsAll_columns]
      refine ⟨List.forall_mem_append.2 ⟨?_, hat⟩, hnumbers⟩
      exact List.forall_mem_map.2 fun name _ => .column _ rfl

/-- So are the outputs of selections behind relations. -/
theorem at_relationOutputs {c : Collection} {row n m : Alias} {conditions : Named Filter}
    (relations : List (String × Selection)) {outputs : List (String × Output)}
    (h : relationOutputs k c row conditions relations n = .ok (outputs, m)) :
    (∀ entry ∈ outputs, entry.2.At row) ∧ Numbers n m (tablesOf (Output.lookupsAll outputs)) := by
  match relations with
  | [] =>
      obtain ⟨rfl, rfl⟩ := Build.pure_eq_ok.1 h
      exact ⟨List.forall_mem_nil _, .nil n⟩
  | (name, s) :: relations =>
      rw [relationOutputs] at h
      cases hr : c.relation? name with
      | none =>
          rw [hr] at h
          cases h
      | some r =>
          rw [hr] at h
          obtain ⟨⟨j, target⟩, _, hjoin, h⟩ := Build.bind_eq_ok.1 h
          obtain ⟨members, l, hmembers, h⟩ := Build.bind_eq_ok.1 h
          -- whatever the condition on the related rows is made of
          have hrest {condition : List Predicate} {l' : Alias}
              (hcondition : (∀ p ∈ condition, p.At j.tableAlias) ∧
                Numbers l l' (tablesOf (Predicate.lookupsAll condition)))
              (h : (do
                return (name, Output.related j members condition r.isToOne) ::
                  (← relationOutputs k c row conditions relations) : Build _) l' =
                    .ok (outputs, m)) :
              (∀ entry ∈ outputs, entry.2.At row) ∧
                Numbers n m (tablesOf (Output.lookupsAll outputs)) := by
            obtain ⟨others, _, hothers, h⟩ := Build.bind_eq_ok.1 h
            obtain ⟨rfl, rfl⟩ := Build.pure_eq_ok.1 h
            obtain ⟨hat, hnumbers⟩ :=
              at_related r.isToOne hjoin (at_selectionOutputs hmembers) hcondition
            obtain ⟨hats, hnumberss⟩ := at_relationOutputs relations hothers
            refine ⟨List.forall_mem_cons.2 ⟨hat, hats⟩, ?_⟩
            rw [Output.lookupsAll, tablesOf_append]
            exact hnumbers.append hnumberss
          have hnone : (∀ p ∈ ([] : List Predicate), p.At j.tableAlias) ∧
              Numbers l l (tablesOf (Predicate.lookupsAll [])) :=
            ⟨List.forall_mem_nil _, .nil l⟩
          cases hf : Named.find? conditions name with
          | none =>
              rw [hf] at h
              exact hrest hnone h
          | some f =>
              rw [hf] at h
              by_cases hall : f.isAll = true
              · simp only [hall, if_true] at h
                exact hrest hnone h
              · simp only [hall] at h
                obtain ⟨condition, _, hcondition, h⟩ := Build.bind_eq_ok.1 h
                obtain ⟨p, hp, rfl⟩ := Build.map_eq_ok.1 hcondition
                obtain ⟨hat, hnumbers⟩ := at_predicate hp
                refine hrest ⟨List.forall_mem_singleton.2 hat, ?_⟩ h
                rw [Predicate.lookupsAll, Predicate.lookupsAll, List.append_nil]
                exact hnumbers

end

/-! ## Order -/

/-- What rows are sorted by is about the row that the path starts from. -/
theorem at_sorting {path : List String} {s : Sorting}
    (h : sorting k path c row n = .ok (s, m)) :
    s.At row ∧ Numbers n m (tablesOf s.lookups) := by
  induction path, c, row using sorting.induct generalizing n m s with
  | case1 c row =>
      obtain ⟨rfl, rfl⟩ := Build.pure_eq_ok.1 h
      exact ⟨.column _ rfl, .nil n⟩
  | case2 name c row =>
      obtain ⟨rfl, rfl⟩ := Build.pure_eq_ok.1 h
      exact ⟨.column _ rfl, .nil n⟩
  | case3 relation rest c row hrest ih =>
      rw [sorting] at h
      · obtain ⟨⟨j, target⟩, _, hjoin, h⟩ := Build.bind_eq_ok.1 h
        obtain ⟨behind, _, hbehind, h⟩ := Build.bind_eq_ok.1 h
        obtain ⟨rfl, rfl⟩ := Build.pure_eq_ok.1 h
        obtain ⟨hlinks, hnumbers⟩ := linksFrom_joinRelation hjoin
        obtain ⟨hat, hinner⟩ := ih j target hbehind
        refine ⟨.behind j behind hlinks hat, ?_⟩
        rw [Sorting.lookups, tablesOf_cons]
        exact hnumbers.append hinner
      · exact hrest

theorem at_sortOrders {sort : List SortKey} {orders : List Order}
    (h : sortOrders k c sort n = .ok (orders, m)) :
    (∀ o ∈ orders, o.At baseAlias) ∧ Numbers n m (tablesOf (orders.flatMap Order.lookups)) := by
  induction sort generalizing n m orders with
  | nil =>
      obtain ⟨rfl, rfl⟩ := Build.pure_eq_ok.1 h
      exact ⟨List.forall_mem_nil _, .nil n⟩
  | cons key sort ih =>
      obtain ⟨s, _, hs, h⟩ := Build.bind_eq_ok.1 h
      obtain ⟨rest, _, hrest, h⟩ := Build.bind_eq_ok.1 h
      obtain ⟨rfl, rfl⟩ := Build.pure_eq_ok.1 h
      obtain ⟨hat, hnumbers⟩ := at_sorting hs
      obtain ⟨hats, hnumberss⟩ := ih hrest
      refine ⟨List.forall_mem_cons.2 ⟨.row s key.direction hat, hats⟩, ?_⟩
      rw [List.flatMap_cons, tablesOf_append]
      exact hnumbers.append hnumberss

end Warden.Sql

namespace Warden

open Sql

/-! ## Parts of a plan -/

variable {k : Catalog} {c : Collection} {p : Plan} {n l m : Alias}

/-- The parts of a condition on rows are about the base row. -/
theorem at_partPredicates {own : Predicate} {related : List Predicate} {search : Option Search}
    (hown : own.At baseAlias ∧ Numbers n l (tablesOf own.lookups))
    (hrelated : (∀ q ∈ related, q.At baseAlias) ∧
      Numbers l m (tablesOf (Predicate.lookupsAll related))) :
    (∀ q ∈ partPredicates c own related search, q.At baseAlias) ∧
      Numbers n m (tablesOf (Predicate.lookupsAll (partPredicates c own related search))) := by
  refine ⟨forall_mem_partPredicates hown.1 hrelated.1 at_searchPredicate (.test _ rfl), ?_⟩
  have hlookups : Predicate.lookupsAll (partPredicates c own related search) =
      own.lookups ++ Predicate.lookupsAll related := by
    have hsearch : Predicate.lookupsAll (search.map searchPredicate).toList = [] := by
      cases search with
      | none => rfl
      | some s => exact congrArg (· ++ []) (lookups_searchPredicate s)
    have halive : Predicate.lookupsAll
        (if c.paranoid then [.test (.alive baseAlias)] else []) = [] := by
      split
      · rfl
      · rfl
    rw [partPredicates, Predicate.lookupsAll_append, Predicate.lookupsAll_append, hsearch, halive,
      List.append_nil, List.append_nil, Predicate.lookupsAll]
  rw [hlookups, tablesOf_append]
  exact hown.2.append hrelated.2

namespace Plan

theorem at_conditions {ps : List Predicate} (h : p.conditions k c n = .ok (ps, m)) :
    (∀ q ∈ ps, q.At baseAlias) ∧ Numbers n m (tablesOf (Predicate.lookupsAll ps)) := by
  obtain ⟨own, l, related, hown, hrelated, rfl⟩ := exists_of_conditions h
  exact at_partPredicates (at_predicate hown) (at_relationPredicates hrelated)

theorem at_orders {orders : List Order} (h : p.orders k c n = .ok (orders, m)) :
    (∀ o ∈ orders, o.At baseAlias) ∧ Numbers n m (tablesOf (orders.flatMap Order.lookups)) := by
  obtain ⟨sorted, l, hsorted, h⟩ := Build.bind_eq_ok.1 h
  obtain ⟨rfl, rfl⟩ := Build.pure_eq_ok.1 h
  obtain ⟨hat, hnumbers⟩ := at_sortOrders hsorted
  have hgiven {given : List Order} (h : (∀ o ∈ given, o.At baseAlias) ∧
      Numbers n l (tablesOf (given.flatMap Order.lookups))) :
      let keys := if given.isEmpty then
        [Order.row (.column ⟨baseAlias, c.primaryKey⟩) .ascending] else given
      (∀ o ∈ keys, o.At baseAlias) ∧ Numbers n l (tablesOf (keys.flatMap Order.lookups)) := by
    intro keys
    by_cases hempty : given.isEmpty = true
    · have hkeys : keys = [.row (.column ⟨baseAlias, c.primaryKey⟩) .ascending] := if_pos hempty
      rw [List.isEmpty_iff.1 hempty] at h
      rw [hkeys]
      exact ⟨List.forall_mem_singleton.2 (.row _ _ (.column _ rfl)), h.2⟩
    · have hkeys : keys = given := if_neg hempty
      rw [hkeys]
      exact h
  -- ranks are of the base row and search for nothing
  have hranked {ranks : List Order} (hranks : ∀ o ∈ ranks, o.At baseAlias)
      (hnone : ranks.flatMap Order.lookups = []) :
      (∀ o ∈ ranks ++ sorted, o.At baseAlias) ∧
        Numbers n l (tablesOf ((ranks ++ sorted).flatMap Order.lookups)) := by
    rw [List.flatMap_append, hnone, List.nil_append]
    exact ⟨List.forall_mem_append.2 ⟨hranks, hat⟩, hnumbers⟩
  apply hgiven
  split
  · split
    · refine hranked (List.forall_mem_singleton.2 (.rank _ _ ?_)) rfl
      exact List.forall_mem_map.2 fun _ _ => rfl
    · exact hranked (List.forall_mem_nil _) rfl
  · exact hranked (List.forall_mem_nil _) rfl

end Plan

end Warden
