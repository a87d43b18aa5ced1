import Warden.Item.Reading
import Warden.Proofs.Query.Lookups
import Warden.Proofs.Query.Plan

/-! # Rows that are marked as deleted

Collections may keep their deleted rows and mark them. Wherever a statement has a table of such a
collection, be it the base table or one in which it searches for the rows behind a relation, the
condition on the rows of that table is a conjunction, and that the row is not marked is one of its
members (**`Statement.HidesDeleted`**, **`deleted_rows_hidden`**).

This is said of the text of the condition. Where a filter has an empty group, the text is no
condition, and nothing is read from it. Filters that have been folded have no empty groups, and
those of everything that is compiled have been (`Compiled.folded`). -/

namespace Warden

open Sql

/-! ## Folded filters -/

/-- The filter and the conditions on related rows have been folded: there are at least two children
below each of their conjunctions and disjunctions. -/
structure Folded (f : Filter) (relConditions : Named Filter) : Prop where
  /-- The filter has been folded. -/
  filter : f.Branching
  /-- The conditions on related rows have been. -/
  relConditions : ∀ entry ∈ relConditions, entry.2.Branching

section Folding

variable {resolver : Resolver} {grant : Grant} {c : Collection}

/-- Replacing variables folds a filter. -/
theorem Resolver.branching_resolveFilter {f g : Filter} (h : resolver.resolveFilter f = .ok g) :
    g.Branching := by
  refine Filter.branching_mapConditions ?_ h
  intro condition f hf
  rw [resolveCondition] at hf
  split at hf
  · simp only [Outcome.bind_eq_ok, Outcome.pure_eq_ok] at hf
    obtain ⟨v, -, _, -, rfl⟩ := hf
    exact .leaf _
  · cases hf
    exact .leaf condition

theorem Request.branching_resolveAll {fs gs : Named Filter} (h : resolveAll resolver fs = .ok gs) :
    ∀ entry ∈ gs, entry.2.Branching := by
  rintro ⟨name, g⟩ hg
  obtain ⟨f, -, hf⟩ := (alike_resolveAll h).exists_mem hg
  exact resolver.branching_resolveFilter hf

/-- The filters of a plan have been folded. -/
theorem Request.folded_of_plan {r : Request} {reader : FilterReader} {p : Plan}
    (h : r.plan reader grant resolver = .ok p) : Folded p.filter p.relConditions := by
  cases hd : grant.denied with
  | true =>
      obtain ⟨c, -, rfl⟩ := plan_of_denied hd h
      exact ⟨.none, List.forall_mem_nil _⟩
  | false =>
      obtain ⟨c, f, related, -, hp⟩ := made_of_plan hd h
      exact ⟨resolver.branching_resolveFilter hp.filter, branching_resolveAll hp.relConditions⟩

/-- So have those of the plan for an item. -/
theorem Context.folded_of_itemPlan {x : Context} {key : String} {fields : Option (List String)}
    {p : Plan} (h : x.itemPlan grant c key fields = .ok p) : Folded p.filter p.relConditions := by
  obtain ⟨q, hq, h⟩ := Outcome.bind_eq_ok.1 h
  obtain rfl := Outcome.pure_eq_ok.1 h
  have hfolded := Request.folded_of_plan hq
  have hparts : ∀ f ∈ [c.keyCondition (.text key), q.filter], f.Branching :=
    List.forall_mem_cons.2 ⟨.leaf _, List.forall_mem_singleton.2 hfolded.filter⟩
  exact ⟨Filter.branching_conjoin hparts, hfolded.relConditions⟩

/-- The filters under which an item is written have been folded. -/
theorem Grant.folded_of_rowSecurity {key : Value} {security : RowSecurity}
    (h : grant.rowSecurity c resolver key = .ok security) :
    Folded security.filter security.relConditions := by
  simp only [rowSecurity, Outcome.bind_eq_ok, Outcome.pure_eq_ok] at h
  obtain ⟨f, hf, _, -, related, hrelated, rfl⟩ := h
  exact ⟨resolver.branching_resolveFilter hf, Request.branching_resolveAll hrelated⟩

end Folding

/-! ## Statements about the rows of a collection -/

namespace Statement

/-- What must hold of the rows of the base table. -/
def conditions : Statement → List Predicate
  | select s => s.conditions
  | count s => s.conditions
  | change s => s.conditions
  | _ => []

/-- The condition on the rows of the base table. -/
def clause (s : Statement) : String :=
  (Predicate.writeConditions s.conditions).sql

/-- The searches for rows behind relations. -/
def lookups : Statement → List Lookup
  | select s => s.lookups
  | s => Predicate.lookupsAll s.conditions

/-- The statement reads, counts, changes or deletes the rows of the collection that match the filter
and the conditions on related rows. -/
inductive Reaches (k : Catalog) : Collection → Filter → Named Filter → Statement → Prop where
  /-- It reads the rows of a plan. -/
  | select {p : Plan} {c : Collection} {s : Select} (hc : k.find p.collection = .ok c)
      (h : p.select k = .ok s) : Reaches k c p.filter p.relConditions (.select s)
  /-- It counts the rows of a plan. -/
  | count {p : Plan} {c : Collection} {s : Count} (hc : k.find p.collection = .ok c)
      (h : p.count k = .ok s) : Reaches k c p.filter p.relConditions (.count s)
  /-- It changes rows. -/
  | update {c : Collection} {collection : String} {f : Filter} {values : Record}
      {relConditions : Named Filter} {s : Change} (hc : k.find collection = .ok c)
      (h : updateRows k collection f values relConditions = .ok s) :
      Reaches k c f relConditions (.change s)
  /-- It deletes rows or marks them. -/
  | delete {c : Collection} {collection : String} {f : Filter} {relConditions : Named Filter}
      {s : Change} (hc : k.find collection = .ok c)
      (h : deleteRows k collection f relConditions = .ok s) :
      Reaches k c f relConditions (.change s)

/-- The statement has a base table: it does not count the one group of all rows. -/
def HasBase (s : Statement) : Prop :=
  s ≠ .count .one

end Statement

variable {k : Catalog} {c : Collection} {f : Filter} {relConditions : Named Filter} {s : Statement}

namespace Filtered

variable {search : Option Search} {conditions : List Predicate} {statement : Fragment}

/-- The searches in the conditions of a statement are made of its filters. -/
theorem made_conditions (h : Filtered k c f relConditions search conditions statement) :
    ∀ l ∈ Predicate.lookupsAll conditions, l.Made k (Folded f relConditions) := by
  obtain ⟨n, own, l, related, m, hown, hrelated, rfl⟩ := h.exists_parts
  have hfilter : ∀ l ∈ own.lookups, l.Made k (Folded f relConditions) := by
    intro l hl
    exact (made_predicate hown l hl).mono Folded.filter
  have hrelations : ∀ p ∈ related, ∀ l ∈ p.lookups, l.Made k (Folded f relConditions) := by
    intro p hp l hl
    exact (made_relationPredicates hrelated p hp l hl).mono Folded.relConditions
  have hsearch (s : Search) :
      ∀ l ∈ (searchPredicate s).lookups, l.Made k (Folded f relConditions) := by
    rw [lookups_searchPredicate]
    exact List.forall_mem_nil _
  have hparts : ∀ p ∈ partPredicates c own related search, ∀ l ∈ p.lookups,
      l.Made k (Folded f relConditions) :=
    forall_mem_partPredicates hfilter hrelations hsearch (List.forall_mem_nil _)
  intro l hl
  obtain ⟨p, hp, hl⟩ := Predicate.mem_lookupsAll.1 hl
  exact hparts p hp l hl

/-- The condition of a statement can be read if its filters have been folded. If it can be read, and
deleted rows are kept, then one of its members is that the row is not marked. -/
theorem readMembers_conditions (h : Filtered k c f relConditions search conditions statement) :
    (Folded f relConditions →
        ∃ rs, readMembers (Predicate.writeConditions conditions).sql = some rs) ∧
      ∀ rs, readMembers (Predicate.writeConditions conditions).sql = some rs →
        c.paranoid = true → (Test.alive baseAlias).reading ∈ rs := by
  obtain ⟨n, own, l, related, m, hown, hrelated, rfl⟩ := h.exists_parts
  have hover : ∀ p ∈ partPredicates c own related search, p.Over fun _ => True :=
    over_partPredicates hown hrelated
  have hne : partPredicates c own related search ≠ [] := by simp [partPredicates]
  constructor
  · intro hfolded
    have hfilled : ∀ p ∈ partPredicates c own related search, p.Filled :=
      (readsAs_partPredicates hown hrelated hfolded.filter hfolded.relConditions).1
    exact ⟨_, (readMembers_writeConditions_iff hover hne).2 ⟨hfilled, rfl⟩⟩
  · intro rs hrs hparanoid
    obtain ⟨-, rfl⟩ := (readMembers_writeConditions_iff hover hne).1 hrs
    have halive : Predicate.test (.alive baseAlias) ∈ partPredicates c own related search := by
      simp [partPredicates, hparanoid]
    exact List.mem_map_of_mem halive

end Filtered

namespace Plan

variable {p : Plan} {n m : Alias}

/-- A search in the order of a plan is one of a sort key. -/
theorem made_orders {orders : List Order} (h : p.orders k c n = .ok (orders, m)) :
    ∀ o ∈ orders, ∀ l ∈ o.lookups, l.Made k True := by
  obtain ⟨sorted, _, hsorted, h⟩ := Build.bind_eq_ok.1 h
  obtain ⟨rfl, -⟩ := Build.pure_eq_ok.1 h
  have hgiven {given : List Order} (h : ∀ o ∈ given, ∀ l ∈ o.lookups, l.Made k True) :
      ∀ o ∈ if given.isEmpty then
          [Order.row (.column ⟨baseAlias, c.primaryKey⟩) .ascending] else given,
        ∀ l ∈ o.lookups, l.Made k True := by
    split
    · exact List.forall_mem_singleton.2 (List.forall_mem_nil _)
    · exact h
  refine hgiven (List.forall_mem_append.2 ⟨?_, made_sortOrders hsorted⟩)
  split
  · split
    · exact List.forall_mem_singleton.2 (List.forall_mem_nil _)
    · exact List.forall_mem_nil _
  · exact List.forall_mem_nil _

/-- There is no search in the outputs of a plan for aggregates. -/
theorem lookups_aggregateOutputs (p : Plan) : Output.lookupsAll p.aggregateOutputs = [] := by
  rw [List.eq_nil_iff_forall_not_mem]
  intro l hl
  obtain ⟨entry, hentry, hl⟩ := Output.mem_lookupsAll.1 hl
  rcases List.mem_append.1 hentry with hentry | hentry
  · obtain ⟨key, -, rfl⟩ := List.mem_map.1 hentry
    cases hl
  · obtain ⟨labelled, -, rfl⟩ := List.mem_map.1 hentry
    cases hl

/-- The searches in the statement that reads the rows of a plan are made of the plan's filters. -/
theorem made_of_select {s : Select} (h : p.select k = .ok s) :
    ∀ l ∈ s.lookups, l.Made k (Folded p.filter p.relConditions) := by
  obtain ⟨c, hc, hs⟩ := Outcome.bind_eq_ok.1 h
  have hconditions := Filtered.made_conditions (.select hc h)
  obtain ⟨⟨built, _⟩, hbuilt, hs⟩ := Outcome.bind_eq_ok.1 hs
  obtain rfl := Outcome.pure_eq_ok.1 hs
  split at hbuilt
  · obtain ⟨conditions, _, -, hbuilt⟩ := Build.bind_eq_ok.1 hbuilt
    obtain ⟨rfl, -⟩ := Build.pure_eq_ok.1 hbuilt
    have horder : ∀ l ∈ (p.sort.map fun key => Order.output key.field key.direction).flatMap
        Order.lookups, l.Made k (Folded p.filter p.relConditions) := by
      simp [Order.lookups, List.flatMap_map]
    refine List.forall_mem_append.2 ⟨List.forall_mem_append.2 ⟨?_, hconditions⟩, horder⟩
    rw [lookups_aggregateOutputs]
    exact List.forall_mem_nil _
  · obtain ⟨outputs, _, houtputs, hbuilt⟩ := Build.bind_eq_ok.1 hbuilt
    obtain ⟨conditions, _, -, hbuilt⟩ := Build.bind_eq_ok.1 hbuilt
    obtain ⟨order, _, horder, hbuilt⟩ := Build.bind_eq_ok.1 hbuilt
    obtain ⟨rfl, -⟩ := Build.pure_eq_ok.1 hbuilt
    refine List.forall_mem_append.2 ⟨List.forall_mem_append.2 ⟨fun l hl => ?_, hconditions⟩, ?_⟩
    · exact (made_selectionOutputs houtputs l hl).mono Folded.relConditions
    · intro l hl
      obtain ⟨o, ho, hl⟩ := List.mem_flatMap.1 hl
      exact (made_orders horder o ho l hl).mono fun _ => trivial

end Plan

namespace Statement.Reaches

theorem filtered (h : s.Reaches k c f relConditions) (hbase : s.HasBase) :
    ∃ search, Filtered k c f relConditions search s.conditions s.write := by
  cases h with
  | select hc h => exact ⟨_, .select hc h⟩
  | @count p c s hc h =>
      refine ⟨_, .count hc h ?_⟩
      rintro rfl
      exact hbase rfl
  | update hc h => exact ⟨_, .update hc h⟩
  | delete hc h => exact ⟨_, .delete hc h⟩

theorem hasBase_of_mem_lookups {l : Lookup} (hl : l ∈ s.lookups) : s.HasBase := by
  rintro rfl
  cases hl

/-- The searches in a statement are made of its filters. -/
theorem made (h : s.Reaches k c f relConditions) :
    ∀ l ∈ s.lookups, l.Made k (Folded f relConditions) := by
  intro l hl
  obtain ⟨search, hfiltered⟩ := h.filtered (hasBase_of_mem_lookups hl)
  cases h with
  | select hc h => exact Plan.made_of_select h l hl
  | count | update | delete => exact hfiltered.made_conditions l hl

/-- The searches in a statement stand in its text. -/
theorem standsIn (h : s.Reaches k c f relConditions) : ∀ l ∈ s.lookups, l.StandsIn s.write.sql := by
  intro l hl
  obtain ⟨search, hfiltered⟩ := h.filtered (hasBase_of_mem_lookups hl)
  cases h with
  | select => exact standsIn_select hl
  | count | update | delete => exact standsIn_of_baseIn hfiltered.baseIn hl

end Statement.Reaches

/-! ## What is asked of rows that may be marked -/

/-- The text says of the rows of the table that they are not marked as deleted: wherever it is read
as a condition, this is one of the members that must all hold. -/
def Sql.DemandsAlive (clause : String) (a : Alias) : Prop :=
  ∀ rs, readMembers clause = some rs → (Test.alive a).reading ∈ rs

example (a : Alias) : (Test.alive a).reading = .comparison
    [.word (aliasName a), .mark '.', .name "deleted_at", .word "IS", .word "NULL"] := by
  rfl

/-- The text is read as a condition. -/
def Sql.Readable (clause : String) : Prop :=
  ∃ rs, readMembers clause = some rs

/-- The search leads to the rows of a collection, and if this collection keeps deleted rows, the
condition of the search demands that they are not marked. -/
structure Sql.Lookup.HidesDeleted (k : Catalog) (l : Lookup) : Prop where
  /-- It is for the rows behind a relation. -/
  target : ∃ target, l.join.LeadsTo k target ∧ l.join.table = target.tableName
  /-- None of them is marked. -/
  alive : ∀ target, l.join.LeadsTo k target → target.paranoid = true →
    DemandsAlive l.clause l.join.tableAlias

/-- No table in a statement about rows of the collection shows rows that are marked as deleted,
where these are kept: neither the base table nor one in which it searches for rows behind a
relation. -/
structure Statement.HidesDeleted (k : Catalog) (c : Collection) (s : Statement) : Prop where
  /-- The base table is that of the collection, and the condition on its rows follows it. -/
  base : s.HasBase → BaseIn c.tableName s.clause s.write.sql
  /-- No row of the base table is marked. -/
  alive : s.HasBase → c.paranoid = true → DemandsAlive s.clause baseAlias
  /-- Every search stands in the text with its condition. -/
  searches : ∀ l ∈ s.lookups, l.StandsIn s.write.sql
  /-- No row of a search is marked. -/
  hidden : ∀ l ∈ s.lookups, l.HidesDeleted k

/-- All conditions in a statement can be read. -/
structure Statement.Readable (s : Statement) : Prop where
  /-- So can the condition on the rows of the base table. -/
  base : s.HasBase → Sql.Readable s.clause
  /-- So can those of the searches. -/
  searches : ∀ l ∈ s.lookups, Sql.Readable l.clause

theorem Sql.Lookup.Made.hidesDeleted {l : Lookup} {folded : Prop} (h : l.Made k folded) :
    l.HidesDeleted k := by
  constructor
  · obtain ⟨target, c, source, name, n, m, hjoin⟩ := h.join
    obtain ⟨-, htable, -⟩ := exists_relation_of_joinRelation hjoin
    exact ⟨target, ⟨c, source, name, n, m, hjoin⟩, htable⟩
  · rintro target ⟨c, source, name, n, m, hjoin⟩ hparanoid rs hrs
    obtain ⟨-, -, hkept⟩ := exists_relation_of_joinRelation hjoin
    obtain ⟨-, rfl⟩ := (Lookup.readMembers_clause_iff h.casts).1 hrs
    simp [Join.onReadings, hkept, hparanoid]

theorem Statement.Reaches.hidesDeleted (h : s.Reaches k c f relConditions) :
    s.HidesDeleted k c := by
  constructor
  case base =>
    intro hbase
    obtain ⟨search, hfiltered⟩ := h.filtered hbase
    exact hfiltered.baseIn
  case alive =>
    intro hbase hparanoid rs hrs
    obtain ⟨search, hfiltered⟩ := h.filtered hbase
    exact hfiltered.readMembers_conditions.2 rs hrs hparanoid
  case searches => exact h.standsIn
  case hidden => exact fun l hl => (h.made l hl).hidesDeleted

theorem Statement.Reaches.readable (h : s.Reaches k c f relConditions)
    (hfolded : Folded f relConditions) : s.Readable := by
  constructor
  case base =>
    intro hbase
    obtain ⟨search, hfiltered⟩ := h.filtered hbase
    exact hfiltered.readMembers_conditions.1 hfolded
  case searches =>
    intro l hl
    have hmade := h.made l hl
    exact ⟨_, (Lookup.readMembers_clause_iff hmade.casts).2 ⟨hmade.filled hfolded, rfl⟩⟩

/-- The filters of what is compiled: of the plan of a request or of an item, of the row of an item
that is written, and the one condition by which the targets of a relation are linked. -/
inductive Compiled (k : Catalog) : Filter → Named Filter → Prop where
  /-- A request is answered. -/
  | plan {r : Request} {maxDepth : Int} {grant : Grant} {resolver : Resolver} {p : Plan}
      (h : r.plan ⟨k, maxDepth⟩ grant resolver = .ok p) : Compiled k p.filter p.relConditions
  /-- An item is read. -/
  | item {x : Context} {grant : Grant} {c : Collection} {key : String}
      {fields : Option (List String)} {p : Plan} (hx : x.catalog = k)
      (h : x.itemPlan grant c key fields = .ok p) : Compiled k p.filter p.relConditions
  /-- An item is changed or deleted. -/
  | row {grant : Grant} {c : Collection} {resolver : Resolver} {key : Value}
      {security : RowSecurity} (h : grant.rowSecurity c resolver key = .ok security) :
      Compiled k security.filter security.relConditions
  /-- Items are linked. -/
  | linked (condition : Condition) : Compiled k (.leaf condition) []

theorem Compiled.folded (h : Compiled k f relConditions) : Folded f relConditions := by
  cases h with
  | plan h => exact Request.folded_of_plan h
  | item _ h => exact Context.folded_of_itemPlan h
  | row h => exact Grant.folded_of_rowSecurity h
  | linked condition => exact ⟨.leaf condition, List.forall_mem_nil _⟩

/-- **Deleted rows are hidden.** In every statement that reads, counts, changes or deletes rows, the
condition on the rows of each table of a collection that keeps deleted rows has the test for their
mark as one of its members: on the base table and wherever rows behind a relation are searched for,
in a condition, an output or the order and inside of such a search. All conditions of the statement
can be read if its filters are those of something compiled. -/
theorem deleted_rows_hidden (h : s.Reaches k c f relConditions) :
    s.HidesDeleted k c ∧ (Compiled k f relConditions → s.Readable) :=
  ⟨h.hidesDeleted, fun hcompiled => h.readable hcompiled.folded⟩

namespace Sample

/-- The posts and their authors, who keep their deleted rows. -/
def kept : Catalog :=
  ⟨[{ posts with paranoid := true }, { users with paranoid := true }]⟩

/-- A request for the authors of the posts whose authors have a name, in the order of the names. -/
def signed : Request :=
  { Request.all "posts" 10 with
    fields := some ["author"]
    filter := .raw (.record [("author.name", .record [("ne", .text "")])])
    relConditions := [("author", .raw (.record [("name", .record [("ne", .text "x")])]))]
    sort := [⟨"author.name", .ascending⟩] }

/-- The plan for it. -/
def signedPlan : Plan where
  collection := "posts"
  filter := .leaf ⟨"author.name", .neq, .text "", none⟩
  relConditions := [("author", .leaf ⟨"name", .neq, .text "x", none⟩)]
  selection := .node [] [("author", .node ["id", "name"] [])]
  allowlist := .all
  now := noon
  sort := [⟨"author.name", .ascending⟩]
  limit := 10
  offset := 0
  search := none
  aggregate := []
  groupBy := []

theorem plan_signed : signed.plan ⟨kept, 7⟩ .admin resolver = .ok signedPlan := by rfl

end Sample

/-- The posts are read with four searches for their authors, and no post or author that is marked as
deleted is among the rows. -/
theorem deleted_rows_hidden_signed : ∃ c s,
    Sample.signed.plan ⟨Sample.kept, 7⟩ .admin Sample.resolver = .ok Sample.signedPlan ∧
    Sample.kept.find "posts" = .ok c ∧ Sample.signedPlan.select Sample.kept = .ok s ∧
    c.paranoid = true ∧ s.lookups.length = 4 ∧
    (Statement.select s).HidesDeleted Sample.kept c ∧
    (Compiled Sample.kept Sample.signedPlan.filter Sample.signedPlan.relConditions →
      (Statement.select s).Readable) ∧
    (Statement.select s).Readable := by
  obtain ⟨c, hc, hkept⟩ : ∃ c, Sample.kept.find "posts" = .ok c ∧ c.paranoid = true :=
    ⟨_, rfl, rfl⟩
  obtain ⟨s, hs, hlookups⟩ :
      ∃ s, Sample.signedPlan.select Sample.kept = .ok s ∧ s.lookups.length = 4 := ⟨_, rfl, rfl⟩
  obtain ⟨hhidden, hreadable⟩ := deleted_rows_hidden (.select hc hs)
  exact ⟨c, s, Sample.plan_signed, hc, hs, hkept, hlookups, hhidden, hreadable,
    hreadable (.plan Sample.plan_signed)⟩

end Warden
