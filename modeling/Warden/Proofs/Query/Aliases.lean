import Mathlib.Data.List.Nodup
import Warden.Proofs.Query.Deletion
import Warden.Proofs.Query.Numbering
import Warden.Proofs.Sql.Renumbering

/-! # The names of the tables of a statement

A statement about the rows of a collection gives names to its tables: the first one to the base
table and the next ones to the tables of its searches. No name is given to two tables, and wherever
a column is used in the text of the statement, the name of its table is given in the query around it
or in one further around (**`tables_distinct_and_known`**). Inside of the statement, each search
leads from the row that it is written for (**`Statement.Linked`**). -/

namespace Warden

open Sql Scoping

/-! ## Statements and their tables -/

namespace Sql

/-- Each part of the statement is about the base row, or about a row that a search leads to from
there. -/
structure Select.Linked (s : Select) : Prop where
  /-- The outputs are. -/
  outputs : ∀ entry ∈ s.outputs, entry.2.At baseAlias
  /-- The conditions are. -/
  conditions : ∀ p ∈ s.conditions, p.At baseAlias
  /-- The rows are grouped by columns of the base row. -/
  groups : ∀ g ∈ s.groups, g.key.tableAlias = baseAlias
  /-- The keys of the order are. -/
  order : ∀ o ∈ s.order, o.At baseAlias

/-- The same of a statement that counts. -/
inductive Count.Linked : Count → Prop where
  /-- There is no row. -/
  | one : Linked .one
  /-- The conditions are about the base row. -/
  | rows {table : String} {conditions : List Predicate} (h : ∀ p ∈ conditions, p.At baseAlias) :
      Linked (.rows table conditions)
  /-- So are the conditions and the columns that the rows are grouped by. -/
  | groups {table : String} {conditions : List Predicate} {keys : List Group}
      (h : ∀ p ∈ conditions, p.At baseAlias) (hkeys : ∀ g ∈ keys, g.key.tableAlias = baseAlias) :
      Linked (.groups table conditions keys)

/-- The same of a statement that writes: its conditions are about the base row. -/
def Change.Linked (s : Change) : Prop :=
  ∀ p ∈ s.conditions, p.At baseAlias

end Sql

namespace Statement

/-- Each part of the statement is about the base row, or about a row that a search leads to from
there. -/
def Linked : Statement → Prop
  | select s => s.Linked
  | count s => s.Linked
  | change s => s.Linked
  | _ => True

/-- The statement has a base table under a name. -/
def namesBase : Statement → Bool
  | select _ | count (.rows _ _) | count (.groups _ _ _) | change (.update _ _ _ _)
  | change (.mark _ _ _) | change (.delete _ _ _) => true
  | _ => false

/-- The names of the tables of a statement: of the base table, of those in its searches, and of the
table of groups where these are counted. -/
def tables (s : Statement) : List String :=
  (if s.namesBase then [aliasName baseAlias] else []) ++ tableNames s.lookups ++
    match s with
    | count (.groups _ _ _) => ["grouped"]
    | _ => []

/-- The statements about the rows of a collection. -/
inductive Rendered (k : Catalog) : Statement → Prop where
  /-- It reads the rows of a plan. -/
  | select {p : Plan} {s : Select} (h : p.select k = .ok s) : Rendered k (.select s)
  /-- It counts the rows of a plan. -/
  | count {p : Plan} {s : Count} (h : p.count k = .ok s) : Rendered k (.count s)
  /-- It adds a row. -/
  | insert {collection : String} {values : Record} {s : Change}
      (h : insertRow k collection values = .ok s) : Rendered k (.change s)
  /-- It changes rows. -/
  | update {collection : String} {f : Filter} {values : Record} {relConditions : Named Filter}
      {s : Change} (h : updateRows k collection f values relConditions = .ok s) :
      Rendered k (.change s)
  /-- It deletes rows or marks them. -/
  | delete {collection : String} {f : Filter} {relConditions : Named Filter} {s : Change}
      (h : deleteRows k collection f relConditions = .ok s) : Rendered k (.change s)
  /-- It links rows. -/
  | link {r : Relation} {source : Value} {targets : List Value} {s : Change}
      (h : linkRows r source targets = .ok s) : Rendered k (.change s)

end Statement

/-! ## How statements are made -/

/-- Nothing is asked of names here. -/
theorem Selection.over_true (s : Selection) : s.Over fun _ => True := by
  match s with
  | .node columns relations =>
      refine .node columns relations (fun _ _ => trivial) (fun _ _ => trivial) ?_
      intro entry hentry
      exact over_true entry.2
termination_by sizeOf s
decreasing_by
  have hentry : sizeOf entry < sizeOf relations := List.sizeOf_lt_of_mem hentry
  have hsecond : sizeOf entry.2 < sizeOf entry := by
    obtain ⟨name, s⟩ := entry
    simp only [Prod.mk.sizeOf_spec]
    omega
  simp only [Selection.node.sizeOf_spec]
  omega

theorem Plan.over_true (p : Plan) : p.Over fun _ => True where
  selection _ := p.selection.over_true
  sortColumns _ _ _ _ _ := trivial
  sortLabels _ _ _ := trivial
  search _ _ _ _ := trivial
  groups _ _ := trivial
  groupLabels _ _ := trivial
  aggregates _ _ _ := trivial
  labels _ _ := trivial

theorem Relation.over_true (r : Relation) : r.Over fun _ => True where
  name := trivial
  foreignKey _ _ := trivial
  through _ _ := trivial
  sourceKey _ _ := trivial
  targetKey _ _ := trivial

/-- The names in a statement that writes are also those in its conditions. -/
theorem Sql.Change.Over.conditions {P : String → Prop} {s : Change} (h : s.Over P) :
    ∀ p ∈ s.conditions, p.Over P := by
  cases h with
  | insert | link => exact List.forall_mem_nil _
  | update _ _ hconditions _ | mark _ _ hconditions _ | delete _ hconditions _ =>
      exact hconditions

section Made

variable {k : Catalog} {p : Plan} {c : Collection}

theorem key_groupOf (key : GroupKey) : (groupOf key).key.tableAlias = baseAlias := by
  unfold groupOf
  split
  · rfl
  · rfl

namespace Plan

theorem at_aggregateOutputs (p : Plan) :
    ∀ entry ∈ p.aggregateOutputs, entry.2.At baseAlias := by
  refine List.forall_mem_append.2 ⟨?_, ?_⟩
  · exact List.forall_mem_map.2 fun key _ => .group _ (key_groupOf key)
  · refine List.forall_mem_map.2 fun entry _ => .aggregate _ _ ?_
    intro column hcolumn
    split at hcolumn
    · cases hcolumn
    · cases hcolumn
      rfl

/-- The statement that reads the rows of a plan is about the base row, and its tables are numbered
from there. -/
theorem linked_of_select {s : Select} (h : p.select k = .ok s) :
    s.Linked ∧ ∃ m, Numbers baseAlias m (tablesOf s.lookups) := by
  obtain ⟨c, hc, h⟩ := Outcome.bind_eq_ok.1 h
  obtain ⟨⟨built, m⟩, hbuilt, h⟩ := Outcome.bind_eq_ok.1 h
  obtain rfl := Outcome.pure_eq_ok.1 h
  split at hbuilt
  · obtain ⟨conditions, l, hconditions, hbuilt⟩ := Build.bind_eq_ok.1 hbuilt
    obtain ⟨rfl, rfl⟩ := Build.pure_eq_ok.1 hbuilt
    obtain ⟨hat, hnumbers⟩ := at_conditions hconditions
    refine ⟨⟨p.at_aggregateOutputs, hat, ?_, ?_⟩, l, ?_⟩
    · exact List.forall_mem_map.2 fun key _ => key_groupOf key
    · exact List.forall_mem_map.2 fun key _ => .output _ _
    · have horder : (p.sort.map fun key => Order.output key.field key.direction).flatMap
          Order.lookups = [] := by
        simp [Order.lookups, List.flatMap_map]
      rw [Select.lookups, lookups_aggregateOutputs, horder, List.nil_append, List.append_nil]
      exact hnumbers
  · obtain ⟨outputs, _, houtputs, hbuilt⟩ := Build.bind_eq_ok.1 hbuilt
    obtain ⟨conditions, _, hconditions, hbuilt⟩ := Build.bind_eq_ok.1 hbuilt
    obtain ⟨order, l, horder, hbuilt⟩ := Build.bind_eq_ok.1 hbuilt
    obtain ⟨rfl, rfl⟩ := Build.pure_eq_ok.1 hbuilt
    obtain ⟨houtputs, hfirst⟩ := at_selectionOutputs houtputs
    obtain ⟨hconditions, hsecond⟩ := at_conditions hconditions
    obtain ⟨horder, hthird⟩ := at_orders horder
    refine ⟨⟨houtputs, hconditions, List.forall_mem_nil _, horder⟩, l, ?_⟩
    rw [Select.lookups, tablesOf_append, tablesOf_append]
    exact (hfirst.append hsecond).append hthird

/-- So is the statement that counts them. -/
theorem linked_of_count {s : Count} (h : p.count k = .ok s) :
    s.Linked ∧ ∃ m, Numbers baseAlias m (tablesOf (Predicate.lookupsAll s.conditions)) := by
  obtain ⟨c, hc, h⟩ := Outcome.bind_eq_ok.1 h
  split at h
  · obtain rfl := Outcome.pure_eq_ok.1 h
    exact ⟨.one, baseAlias, .nil _⟩
  · obtain ⟨⟨conditions, m⟩, hconditions, h⟩ := Outcome.bind_eq_ok.1 h
    obtain ⟨hat, hnumbers⟩ := at_conditions hconditions
    obtain rfl := Outcome.pure_eq_ok.1 h
    split
    · exact ⟨.rows hat, m, hnumbers⟩
    · exact ⟨.groups hat (List.forall_mem_map.2 fun key _ => key_groupOf key), m, hnumbers⟩

end Plan

/-- What must hold of rows that are written is about the base row. -/
theorem linked_of_rowConditions {f : Filter} {relConditions : Named Filter} {ps : List Predicate}
    (h : rowConditions k c f relConditions = .ok ps) :
    (∀ p ∈ ps, p.At baseAlias) ∧ ∃ m, Numbers baseAlias m (tablesOf (Predicate.lookupsAll ps)) := by
  obtain ⟨own, l, related, m, hown, hrelated, rfl⟩ := exists_of_rowConditions h
  have hparts : (own :: related ++ if c.paranoid then [.test (.alive baseAlias)] else []) =
      partPredicates c own related none := by
    simp [partPredicates]
  rw [hparts]
  obtain ⟨hat, hnumbers⟩ := at_partPredicates (at_predicate hown) (at_relationPredicates hrelated)
  exact ⟨hat, m, hnumbers⟩

end Made

/-! ## Texts of statements -/

namespace Sql

variable {known names names' : List String} {s t : String} {P : String → Prop}

/-- A base table gets its name, and what is asked of its rows involves the tables of searches. -/
theorem involves_writeBase (table : String) {conditions : List Predicate}
    (hover : ∀ p ∈ conditions, p.Over P) (hat : ∀ p ∈ conditions, p.At baseAlias)
    (hknown : aliasName baseAlias ∈ known) :
    Apart (writeBase table conditions).sql ∧
      Involves known [aliasName baseAlias]
        (aliasName baseAlias :: tableNames (Predicate.lookupsAll conditions))
        (writeBase table conditions).sql := by
  have hfrom : Apart " FROM " := by decide
  have hwhere : Apart " WHERE " := by decide
  have hsql : (writeBase table conditions).sql = " FROM " ++ (tableSql table baseAlias ++
      (" WHERE " ++ String.intercalate " AND " ((Predicate.writeAll conditions).map
        Fragment.sql))) := by
    rw [writeBase, Predicate.writeConditions, Fragment.sql_append, Fragment.sql_ofText,
      Fragment.sql_joined]
    simp only [String.append_assoc]
  have hconditions := (Predicate.involvesEach_writeAll hover hat hknown).intercalate
    (by decide : Leads " AND " []) (by decide)
  have htable : Involves known [aliasName baseAlias] [aliasName baseAlias]
      (tableSql table baseAlias) := involves_tableSql table baseAlias
  have hbase := htable.append (hwhere.append _)
    (hconditions.lead (by decide : Leads " WHERE " []))
  rw [hsql]
  exact ⟨hfrom.append _, hbase.lead (by decide)⟩

/-- A clause that is left out says nothing. -/
theorem follows_ite {b : Prop} [Decidable b] {f g : Fragment} (hf : Follows known names f.sql)
    (hg : Follows known names g.sql) : Follows known names (if b then f else g).sql := by
  by_cases hb : b
  · rw [if_pos hb]
    exact hf
  · rw [if_neg hb]
    exact hg

theorem follows_writeGroups {groups : List Group}
    (hgroups : ∀ g ∈ groups, g.key.tableAlias = baseAlias) (hknown : aliasName baseAlias ∈ known) :
    Follows known [] (writeGroups groups).sql := by
  have hapart : Apart " GROUP BY " := by decide
  have hkeys : InvolvesEach known [] (groups.map Group.sql) := by
    refine .of_forall (List.forall_mem_map.2 fun g hg => involves_group ?_)
    rw [hgroups g hg]
    exact hknown
  have hlist : Involves known [] [] (String.intercalate ", " (groups.map Group.sql)) :=
    hkeys.intercalate (by decide) (by decide)
  refine follows_ite .nothing ?_
  rw [Fragment.sql_ofText]
  exact .involves (hapart.append _) (hlist.lead (by decide))

theorem follows_order {order : List Order} (horder : ∀ o ∈ order, o.At baseAlias)
    (hknown : aliasName baseAlias ∈ known) :
    Follows known (tableNames (order.flatMap Order.lookups))
      (Fragment.sql (if order.isEmpty then []
        else .ofText " ORDER BY " ++ .joined ", " (order.map Order.write))) := by
  have hapart : Apart " ORDER BY " := by decide
  have hkeys : InvolvesEach known (tableNames (order.flatMap Order.lookups))
      ((order.map Order.write).map Fragment.sql) := by
    induction order with
    | nil => exact .nil
    | cons o order ih =>
        obtain ⟨ho, horder⟩ := List.forall_mem_cons.1 horder
        rw [List.flatMap_cons, tableNames_append, List.map_cons, List.map_cons]
        exact .cons (Order.involves_write ho hknown) (ih horder)
  by_cases hempty : order.isEmpty = true
  · rw [if_pos hempty, List.isEmpty_iff.1 hempty]
    exact .nothing
  · rw [if_neg hempty, Fragment.sql_append, Fragment.sql_ofText, Fragment.sql_joined]
    have hlist := hkeys.intercalate (by decide : Leads ", " []) (by decide)
    exact .involves (hapart.append _) (hlist.lead (by decide))

/-- A bound on the rows names no table. -/
theorem follows_bound {b : Prop} [Decidable b] (word : String)
    (hword : Trails (word ++ Fragment.placeholder) []) (v : Value) :
    Follows known [] (Fragment.sql (if b then .ofText word ++ .ofValue v else [])) := by
  refine follows_ite ?_ .nothing
  rw [Fragment.sql_append, Fragment.sql_ofText, Fragment.sql_ofValue]
  exact .involves hword.apart (involves_nothing hword.reads)

/-- **The text of a statement that reads rows** gives names to the base table and to the tables of
its searches. -/
theorem Select.involves_write {s : Select} (hover : s.Over P) (hlinked : s.Linked) :
    Involves [aliasName baseAlias] [aliasName baseAlias]
      (aliasName baseAlias :: tableNames s.lookups) s.write.sql := by
  have hknown : aliasName baseAlias ∈ [aliasName baseAlias] := List.mem_cons_self
  have houtputs := (Output.involvesEach_labelled hover.outputs hlinked.outputs hknown).intercalate
    (by decide : Leads ", " []) (by decide)
  obtain ⟨hapart, hbase⟩ :=
    involves_writeBase s.table hover.conditions hlinked.conditions hknown
  have hrows := (houtputs.lead (by decide : Leads "SELECT " [])).append hapart hbase
  have hall := (((hrows.follow (follows_writeGroups hlinked.groups hknown)).follow
    (follows_order hlinked.order hknown)).follow
    (follows_bound (b := 0 ≤ s.limit) " LIMIT " (by decide) (.int s.limit))).follow
    (follows_bound (b := 0 < s.offset) " OFFSET " (by decide) (.int s.offset))
  have hnames : (tableNames (Output.lookupsAll s.outputs) ++ (aliasName baseAlias ::
      tableNames (Predicate.lookupsAll s.conditions)) ++ [] ++
      tableNames (s.order.flatMap Order.lookups) ++ [] ++ []).Perm
      (aliasName baseAlias :: tableNames s.lookups) := by
    simp only [List.append_nil, List.append_assoc, Select.lookups, tableNames_append]
    exact List.perm_middle
  have hsql : s.write.sql = "SELECT " ++ String.intercalate ", "
      ((s.outputs.map fun entry => entry.2.writeLabelled entry.1).map Fragment.sql) ++
      (writeBase s.table s.conditions).sql ++ (writeGroups s.groups).sql ++
      (Fragment.sql (if s.order.isEmpty then []
        else .ofText " ORDER BY " ++ .joined ", " (s.order.map Order.write))) ++
      (Fragment.sql (if 0 ≤ s.limit then .ofText " LIMIT " ++ .ofValue (.int s.limit) else [])) ++
      Fragment.sql
        (if 0 < s.offset then .ofText " OFFSET " ++ .ofValue (.int s.offset) else []) := by
    simp only [Select.write, Fragment.sql_append, Fragment.sql_ofText, Fragment.sql_joined]
  rw [hsql]
  exact hall.perm (.refl _) hnames

/-- **The text of a statement that counts** gives names to the base table, to the tables of its
searches and to that of groups, where there are such. -/
theorem Count.involves_write {s : Count} (hover : s.Over P) (hlinked : s.Linked) :
    ∃ own, Involves own own (Statement.count s).tables s.write.sql := by
  have hcount {known : List String} : Involves known [] [] "SELECT count(*)" :=
    involves_pairs 1 (by decide)
  cases hover with
  | one => exact ⟨[], involves_nothing (by decide)⟩
  | rows table conditions _ hover =>
      cases hlinked with
      | rows hat =>
          obtain ⟨hapart, hbase⟩ := involves_writeBase table hover hat List.mem_cons_self
          have hall := hcount.append hapart hbase
          have hsql : (Count.rows table conditions).write.sql =
              "SELECT count(*)" ++ (writeBase table conditions).sql := by
            simp only [Count.write, Fragment.sql_append, Fragment.sql_ofText]
          have hnames : (Statement.count (.rows table conditions)).tables =
              aliasName baseAlias :: tableNames (Predicate.lookupsAll conditions) := by
            simp [Statement.tables, Statement.namesBase, Statement.lookups, Statement.conditions,
              Count.conditions]
          rw [hsql, hnames]
          exact ⟨_, hall⟩
  | groups table conditions keys _ hover _ =>
      cases hlinked with
      | groups hat hkeys =>
          -- inside of the parentheses the base table is known, outside that of groups is
          have hknown : aliasName baseAlias ∈ [aliasName baseAlias] ++ ["grouped"] :=
            List.mem_cons_self
          obtain ⟨hapart, hbase⟩ := involves_writeBase table hover hat hknown
          have hinner := ((involves_nothing (by decide) : Involves _ [] [] "SELECT 1").append hapart
            hbase).follow (follows_writeGroups hkeys hknown)
          have hgroup := hinner.group (by decide : Leads " FROM (" [.opening])
            (by decide : Trails ")" [.closing])
          have hname : Involves ["grouped"] ["grouped"] ["grouped"] " AS grouped" :=
            involves_name (by decide)
          have hfrom : Apart " FROM (" := by decide
          have hall := (hcount.append ((hfrom.append _).append _) hgroup).append (by decide) hname
          have hsql : (Count.groups table conditions keys).write.sql =
              "SELECT count(*)" ++ (" FROM (" ++ ("SELECT 1" ++ (writeBase table conditions).sql ++
                (writeGroups keys).sql) ++ ")") ++ " AS grouped" := by
            have hbefore : "SELECT count(*) FROM (SELECT 1" =
                "SELECT count(*)" ++ (" FROM (" ++ "SELECT 1") := rfl
            have hafter : ") AS grouped" = ")" ++ " AS grouped" := rfl
            simp only [Count.write, hbefore, hafter, Fragment.sql_append, Fragment.sql_ofText,
              String.append_assoc]
          have hnames : (Statement.count (.groups table conditions keys)).tables =
              aliasName baseAlias :: tableNames (Predicate.lookupsAll conditions) ++
                ["grouped"] := by
            simp [Statement.tables, Statement.namesBase, Statement.lookups, Statement.conditions,
              Count.conditions]
          rw [hsql, hnames]
          rw [List.nil_append, List.nil_append, List.append_nil] at hall
          exact ⟨_, hall⟩

theorem involves_written (w : Written) : Involves known [] [] w.write.sql := by
  cases w with
  | plain v =>
      rw [Written.write, Fragment.sql_ofValue]
      exact involves_nothing (by decide)
  | json v =>
      rw [Written.write, Fragment.sql_ofJson]
      exact involves_nothing (by decide)
  | geometry s =>
      have hsql : (Written.geometry s).write.sql = "ST_GeomFromGeoJSON(%s)" := by
        simp [Written.write, Test.geometrySql, Fragment.placeholder]
      rw [hsql]
      exact involves_pairs 1 (by decide)

theorem involves_identifier (name : String) : Involves known [] [] (identifier name) :=
  involves_nothing (leads_identifier name).reads

namespace Change

/-- What is asked of the rows that are written, and the key that is returned, is of the base
table. -/
theorem involves_writeWhere {conditions : List Predicate} (hover : ∀ p ∈ conditions, p.Over P)
    (hat : ∀ p ∈ conditions, p.At baseAlias) (hknown : aliasName baseAlias ∈ known)
    (key : String) :
    Follows known (tableNames (Predicate.lookupsAll conditions))
      (writeWhere conditions key).sql := by
  have hwhere : Apart " WHERE " := by decide
  have hreturning : Apart " RETURNING " := by decide
  have hsql : (writeWhere conditions key).sql = " WHERE " ++ (String.intercalate " AND "
      ((Predicate.writeAll conditions).map Fragment.sql) ++
        (" RETURNING " ++ (Column.mk baseAlias key).sql)) := by
    simp only [writeWhere, Predicate.writeConditions, Fragment.sql_append, Fragment.sql_ofText,
      Fragment.sql_joined, String.append_assoc]
  have hconditions := (Predicate.involvesEach_writeAll hover hat hknown).intercalate
    (by decide : Leads " AND " []) (by decide)
  have hkey : Involves known [] [] (Column.mk baseAlias key).sql := involves_column hknown
  have hboth := hconditions.append (hreturning.append _)
    (hkey.lead (by decide : Leads " RETURNING " []))
  rw [List.append_nil, List.append_nil] at hboth
  rw [hsql]
  exact .involves (hwhere.append _) (hboth.lead (by decide))

theorem involves_insert (table : String) (values : List (String × Written)) (key : String) :
    Involves [] [] [] (insert table values key).write.sql := by
  have hcolumns : Involves [] [] []
      (String.intercalate ", " (values.map fun entry => identifier entry.1)) := by
    refine (InvolvesEach.of_forall (List.forall_mem_map.2 ?_)).intercalate (by decide) (by decide)
    exact fun entry _ => involves_identifier entry.1
  have hvalues : Involves [] [] []
      (String.intercalate ", " ((values.map fun entry => entry.2.write).map Fragment.sql)) := by
    refine (InvolvesEach.of_forall (List.forall_mem_map.2 ?_)).intercalate (by decide) (by decide)
    exact List.forall_mem_map.2 fun entry _ => involves_written entry.2
  have hsql : (insert table values key).write.sql =
      "INSERT INTO " ++ identifier table ++ (" (" ++
        String.intercalate ", " (values.map fun entry => identifier entry.1) ++ ")") ++
        (" VALUES (" ++
          String.intercalate ", " ((values.map fun entry => entry.2.write).map Fragment.sql) ++
          ")") ++ (" RETURNING " ++ identifier key) := by
    have hbetween : ") VALUES (" = ")" ++ " VALUES (" := rfl
    have hafter : ") RETURNING " = ")" ++ " RETURNING " := rfl
    simp only [write, hbetween, hafter, Fragment.sql_append, Fragment.sql_ofText,
      Fragment.sql_joined, String.append_assoc]
  have hopening : Apart " (" := by decide
  have hinto : Apart " VALUES (" := by decide
  have hreturning : Apart " RETURNING " := by decide
  have hclosing : Trails ")" [.closing] := by decide
  have htable : Involves [] [] [] ("INSERT INTO " ++ identifier table) :=
    (involves_identifier table).lead (by decide)
  have hnamed := htable.append ((hopening.append _).append _)
    (hcolumns.parenthesized (by decide : Leads " (" [.opening]) hclosing)
  have hgiven := hnamed.append ((hinto.append _).append _)
    (hvalues.parenthesized (by decide : Leads " VALUES (" [.opening]) hclosing)
  rw [hsql]
  exact hgiven.append (hreturning.append _) ((involves_identifier key).lead (by decide))

theorem involves_link (table sourceColumn targetColumn : String) (source : Value)
    (targets : List Value) :
    Involves [] [] [] (link table sourceColumn targetColumn source targets).write.sql := by
  have hsql : (link table sourceColumn targetColumn source targets).write.sql =
      "INSERT INTO " ++ identifier table ++ (" (" ++ (identifier sourceColumn ++ (", " ++
        identifier targetColumn)) ++ ")") ++ (" SELECT " ++ Fragment.placeholder ++
        ", unnest(" ++ Fragment.placeholder ++ ") ON CONFLICT DO NOTHING") := by
    have hbetween : ") SELECT " = ")" ++ " SELECT " := rfl
    simp only [write, hbetween, Fragment.sql_append, Fragment.sql_ofText, Fragment.sql_ofValue,
      String.append_assoc]
  have hcomma : Apart ", " := by decide
  have hopening : Apart " (" := by decide
  have hcolumns : Involves [] [] []
      (identifier sourceColumn ++ (", " ++ identifier targetColumn)) :=
    (involves_identifier sourceColumn).append (hcomma.append _)
      ((involves_identifier targetColumn).lead (by decide))
  have htable : Involves [] [] [] ("INSERT INTO " ++ identifier table) :=
    (involves_identifier table).lead (by decide)
  have hnamed := htable.append ((hopening.append _).append _)
    (hcolumns.parenthesized (by decide : Leads " (" [.opening])
      (by decide : Trails ")" [.closing]))
  rw [hsql]
  exact hnamed.tail 1 (by decide)

section Rows

variable {conditions : List Predicate} (hover : ∀ p ∈ conditions, p.Over P)
  (hat : ∀ p ∈ conditions, p.At baseAlias)

include hover hat

/-- A statement that writes to rows of the base table gives names to it and to the tables of its
searches. -/
theorem involves_rows (table key : String) {before assigned : String}
    (hbefore : Leads before []) (hassigned : Follows [aliasName baseAlias] [] assigned) :
    Involves [aliasName baseAlias] [aliasName baseAlias]
      (aliasName baseAlias :: tableNames (Predicate.lookupsAll conditions))
      (before ++ tableSql table baseAlias ++ assigned ++ (writeWhere conditions key).sql) := by
  have htable : Involves [aliasName baseAlias] [aliasName baseAlias] [aliasName baseAlias]
      (before ++ tableSql table baseAlias) := (involves_tableSql table baseAlias).lead hbefore
  exact (htable.follow hassigned).follow
    (involves_writeWhere hover hat List.mem_cons_self key)

theorem involves_update (table : String) (values : List (String × Written)) (key : String) :
    Involves [aliasName baseAlias] [aliasName baseAlias]
      (aliasName baseAlias :: tableNames (Predicate.lookupsAll conditions))
      (update table values conditions key).write.sql := by
  let assign (entry : String × Written) : Fragment :=
    .ofText (identifier entry.1 ++ " = ") ++ entry.2.write
  have hset : Apart " SET " := by decide
  have hvalues : Involves [aliasName baseAlias] [] []
      (String.intercalate ", " ((values.map assign).map Fragment.sql)) := by
    refine (InvolvesEach.of_forall (List.forall_mem_map.2 ?_)).intercalate (by decide) (by decide)
    refine List.forall_mem_map.2 fun entry _ => ?_
    have hname : Leads (identifier entry.1 ++ " = ") [] :=
      (leads_identifier entry.1).append_leads (by decide : Leads " = " [])
    rw [Fragment.sql_append, Fragment.sql_ofText]
    exact (involves_written entry.2).lead hname
  have hsql : (update table values conditions key).write.sql =
      "UPDATE " ++ tableSql table baseAlias ++ (" SET " ++
        String.intercalate ", " ((values.map assign).map Fragment.sql)) ++
        (writeWhere conditions key).sql := by
    simp only [write, assign, Fragment.sql_append, Fragment.sql_ofText, Fragment.sql_joined,
      String.append_assoc]
  rw [hsql]
  exact involves_rows hover hat table key (by decide : Leads "UPDATE " [])
    (.involves (hset.append _) (hvalues.lead (by decide)))

theorem involves_mark (table key : String) :
    Involves [aliasName baseAlias] [aliasName baseAlias]
      (aliasName baseAlias :: tableNames (Predicate.lookupsAll conditions))
      (mark table conditions key).write.sql := by
  have hset : Apart " SET " := by decide
  have hmark : Involves [aliasName baseAlias] [] [] (identifier deletedMark ++ " = now()") :=
    (involves_identifier deletedMark).tail 1 (by decide)
  have hsql : (mark table conditions key).write.sql =
      "UPDATE " ++ tableSql table baseAlias ++ (" SET " ++ (identifier deletedMark ++
        " = now()")) ++ (writeWhere conditions key).sql := by
    simp only [write, Fragment.sql_append, Fragment.sql_ofText, String.append_assoc]
  rw [hsql]
  exact involves_rows hover hat table key (by decide : Leads "UPDATE " [])
    (.involves (hset.append _) (hmark.lead (by decide)))

theorem involves_delete (table key : String) :
    Involves [aliasName baseAlias] [aliasName baseAlias]
      (aliasName baseAlias :: tableNames (Predicate.lookupsAll conditions))
      (delete table conditions key).write.sql := by
  have hsql : (delete table conditions key).write.sql =
      "DELETE FROM " ++ tableSql table baseAlias ++ "" ++ (writeWhere conditions key).sql := by
    simp only [write, Fragment.sql_append, Fragment.sql_ofText, String.append_empty]
  rw [hsql]
  exact involves_rows hover hat table key (by decide : Leads "DELETE FROM " []) .nothing

end Rows

/-- **The text of a statement that writes** gives names to the base table, if it has one, and to the
tables of its searches. -/
theorem involves_write {s : Change} (hover : ∀ p ∈ s.conditions, p.Over P) (hlinked : s.Linked) :
    ∃ own, Involves own own (Statement.change s).tables s.write.sql := by
  have htables {s : Change} (hbase : (Statement.change s).namesBase = true) :
      (Statement.change s).tables =
        aliasName baseAlias :: tableNames (Predicate.lookupsAll s.conditions) := by
    simp [Statement.tables, hbase, Statement.lookups, Statement.conditions]
  cases s with
  | insert table values key => exact ⟨[], involves_insert table values key⟩
  | update table values conditions key =>
      rw [htables rfl]
      exact ⟨_, involves_update hover hlinked table values key⟩
  | mark table conditions key =>
      rw [htables rfl]
      exact ⟨_, involves_mark hover hlinked table key⟩
  | delete table conditions key =>
      rw [htables rfl]
      exact ⟨_, involves_delete hover hlinked table key⟩
  | link table sourceColumn targetColumn source targets =>
      exact ⟨[], involves_link table sourceColumn targetColumn source targets⟩

end Change

end Sql

/-! ## Names of a statement -/

variable {k : Catalog} {s : Statement}

namespace Statement.Rendered

/-- The parts of a statement are about the rows they are written for, and its tables are numbered in
a row. -/
theorem linked (h : s.Rendered k) :
    s.Linked ∧ ∃ m, Numbers baseAlias m (tablesOf s.lookups) := by
  cases h with
  | select h => exact Plan.linked_of_select h
  | count h => exact Plan.linked_of_count h
  | insert h =>
      obtain ⟨c, hc, h⟩ := Outcome.bind_eq_ok.1 h
      obtain ⟨values, hvalues, h⟩ := Outcome.bind_eq_ok.1 h
      obtain rfl := Outcome.pure_eq_ok.1 h
      exact ⟨List.forall_mem_nil _, baseAlias, .nil _⟩
  | update h =>
      obtain ⟨c, hc, h⟩ := Outcome.bind_eq_ok.1 h
      obtain ⟨values, hvalues, h⟩ := Outcome.bind_eq_ok.1 h
      obtain ⟨conditions, hconditions, h⟩ := Outcome.bind_eq_ok.1 h
      obtain rfl := Outcome.pure_eq_ok.1 h
      exact linked_of_rowConditions hconditions
  | delete h =>
      obtain ⟨c, hc, h⟩ := Outcome.bind_eq_ok.1 h
      obtain ⟨conditions, hconditions, h⟩ := Outcome.bind_eq_ok.1 h
      have hlinked := linked_of_rowConditions hconditions
      split at h
      · obtain rfl := Outcome.pure_eq_ok.1 h
        exact hlinked
      · obtain rfl := Outcome.pure_eq_ok.1 h
        exact hlinked
  | link h =>
      obtain ⟨sourceColumn, hsource, h⟩ := Outcome.bind_eq_ok.1 h
      obtain ⟨targetColumn, htarget, h⟩ := Outcome.bind_eq_ok.1 h
      obtain ⟨table, htable, h⟩ := Outcome.bind_eq_ok.1 h
      obtain rfl := Outcome.pure_eq_ok.1 h
      exact ⟨List.forall_mem_nil _, baseAlias, .nil _⟩

/-- A statement gives names to its tables in its text. -/
theorem involves_write (h : s.Rendered k) : ∃ own, Involves own own s.tables s.write.sql := by
  have hlinked := h.linked.1
  cases h with
  | @select p s h =>
      have htables : (Statement.select s).tables = aliasName baseAlias :: tableNames s.lookups := by
        simp [Statement.tables, Statement.namesBase, Statement.lookups]
      rw [htables]
      exact ⟨_, Select.involves_write (Plan.over_select k.over_true p.over_true h) hlinked⟩
  | @count p s h =>
      exact Count.involves_write (Plan.over_count k.over_true p.over_true h) hlinked
  | insert h =>
      have hover := over_insertRow k.over_true (fun _ _ => trivial) h
      exact Change.involves_write hover.conditions hlinked
  | update h =>
      have hover := over_updateRows k.over_true (fun _ _ => trivial) h
      exact Change.involves_write hover.conditions hlinked
  | delete h => exact Change.involves_write (over_deleteRows k.over_true h).conditions hlinked
  | @link r _ _ _ h =>
      have hover := over_linkRows r.over_true h
      exact Change.involves_write hover.conditions hlinked

end Statement.Rendered

/-- No number of a table is the name of the table of groups. -/
theorem Sql.aliasName_ne_grouped (a : Alias) : aliasName a ≠ "grouped" := by
  intro h
  have hfirst : (aliasName a).toList.head? = some 't' := by rw [toList_aliasName, List.head?_cons]
  rw [h] at hfirst
  exact absurd hfirst (by decide)

/-- The tables of a statement have different names. -/
theorem Statement.Rendered.nodup_tables (h : s.Rendered k) : s.tables.Nodup := by
  obtain ⟨m, hnumbers⟩ := h.linked.2
  have hnumbered : ([aliasName baseAlias] ++ tableNames s.lookups).Nodup :=
    List.Nodup.map aliasName_injective hnumbers.nodup
  have hall : ([aliasName baseAlias] ++ tableNames s.lookups ++ ["grouped"]).Nodup := by
    refine List.nodup_append.2 ⟨hnumbered, List.nodup_singleton _, ?_⟩
    intro name hname grouped hgrouped
    obtain ⟨a, -, rfl⟩ : ∃ a ∈ baseAlias :: tablesOf s.lookups, aliasName a = name :=
      List.mem_map.1 hname
    rw [List.mem_singleton.1 hgrouped]
    exact aliasName_ne_grouped a
  have hsub : s.tables.Sublist ([aliasName baseAlias] ++ tableNames s.lookups ++ ["grouped"]) := by
    refine .append (.append ?_ (.refl _)) ?_
    · split
      · exact .refl _
      · exact List.nil_sublist _
    · split
      · exact .refl _
      · exact List.nil_sublist _
  exact hall.sublist hsub

/-- **Tables have names of their own, and columns are those of known tables**, in every statement
about the rows of a collection. In its text, the base table and the tables of all searches are given
names, no name is given twice, and wherever a column is used, the name before it is given in the
parentheses around it or in some further around. Each search links its tables to the row that it
leads from. -/
theorem tables_distinct_and_known (h : s.Rendered k) :
    ∃ bs, blocks? s.write.sql = some bs ∧ (Block.introducedAll bs).Perm s.tables ∧
      (Block.introducedAll bs).Nodup ∧ (∀ b ∈ bs, b.Scoped (Block.ownAll bs)) ∧ s.Linked := by
  obtain ⟨own, hinvolves⟩ := h.involves_write
  obtain ⟨bs, hblocks, hnames, hscoped⟩ := hinvolves.blocks
  exact ⟨bs, hblocks, hnames, hnames.symm.nodup h.nodup_tables, hscoped, h.linked.1⟩

namespace Sample

/-- The plan for the posts with a tag, with their tags and comments, in the order of their authors'
names. -/
def tagged : Plan where
  collection := "posts"
  filter := .leaf ⟨"tags.label", .eq, .text "x", none⟩
  relConditions := []
  selection := .node ["title"] [("tags", .node ["label"] []), ("comments", .node ["body"] [])]
  allowlist := .all
  now := noon
  sort := [⟨"author.name", .ascending⟩]
  limit := 10
  offset := 0
  search := none
  aggregate := []
  groupBy := []

end Sample

/-- The tags of posts are reached through a table in between, so each of their two searches has two
tables. -/
theorem tables_distinct_and_known_tagged : ∃ s,
    Sample.tagged.select (Sample.blog []).reader.catalog = .ok s ∧
    (Statement.select s).Rendered (Sample.blog []).reader.catalog ∧
    (Statement.select s).tables = ["t0", "t1", "t2", "t3", "t4", "t5", "t6"] ∧
    ∃ bs, blocks? (Statement.select s).write.sql = some bs ∧
      (Block.introducedAll bs).Perm (Statement.select s).tables ∧ (Block.introducedAll bs).Nodup ∧
      (∀ b ∈ bs, b.Scoped (Block.ownAll bs)) ∧ (Statement.select s).Linked := by
  obtain ⟨s, hs, htables⟩ : ∃ s, Sample.tagged.select (Sample.blog []).reader.catalog = .ok s ∧
      (Statement.select s).tables = ["t0", "t1", "t2", "t3", "t4", "t5", "t6"] :=
    ⟨_, rfl, rfl⟩
  exact ⟨s, hs, .select hs, htables, tables_distinct_and_known (.select hs)⟩

end Warden
