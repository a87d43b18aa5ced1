import Warden.Proofs.Query.Lookups
import Warden.Proofs.Sql.Scoping

/-! # The tables that stand for rows

Every part of a statement is about a row of a table: its columns are those of this row, and its
searches lead from this row to others, for which tables of their own stand. This is said of each
kind of part by a predicate **`At`**, and of a search by **`Join.LinksFrom`**: the keys link the
table of the search to that of the row, or both to a table in between.

The text of a part that is about a row involves, where the name of the row's table is known, the
tables of its searches and no others (`involves_write` for each kind). For a search this is so
because it stands in parentheses together with its tables. -/

namespace Warden.Sql

open Scoping

/-! ## Rows and searches -/

/-- The numbers that a join gives to tables: to the one it leads to and to the one in between. -/
def Join.aliases (j : Join) : List Alias :=
  j.tableAlias :: (j.junction.map Junction.tableAlias).toList

/-- The keys are those of two tables. -/
structure Correlation.Links (c : Correlation) (a b : Alias) : Prop where
  /-- One key is that of the one table. -/
  left : c.left.tableAlias = a
  /-- The other key is that of the other table. -/
  right : c.right.tableAlias = b

/-- The keys link the table of the join to that of a row, or both to the one in between. -/
inductive Join.LinksFrom (row : Alias) (j : Join) : Prop where
  /-- There is none in between. -/
  | direct (hnone : j.junction = none) (hon : j.on.Links j.tableAlias row)
  /-- There is one in between. -/
  | through (u : Junction) (hsome : j.junction = some u)
      (htarget : u.on.Links j.tableAlias u.tableAlias) (hon : j.on.Links u.tableAlias row)

/-- The predicate is about the row of a table. -/
inductive Predicate.At : Alias → Predicate → Prop where
  /-- Nothing is said of the row. -/
  | constant {row : Alias} (b : Bool) : At row (.constant b)
  /-- A column of the row is tested. -/
  | test {row : Alias} (t : Test) (h : t.operand.column.tableAlias = row) : At row (.test t)
  /-- So is each part. -/
  | conj {row : Alias} (ps : List Predicate) (h : ∀ p ∈ ps, At row p) : At row (.conj ps)
  /-- So is each part. -/
  | disj {row : Alias} (ps : List Predicate) (h : ∀ p ∈ ps, At row p) : At row (.disj ps)
  /-- So is what is negated. -/
  | neg {row : Alias} (p : Predicate) (h : At row p) : At row (.neg p)
  /-- The join leads from the row, and what is behind it is about the row it leads to. -/
  | exist {row : Alias} (j : Join) (p : Predicate) (hj : j.LinksFrom row)
      (hp : At j.tableAlias p) : At row (.exist j p)

/-- The column that rows are grouped by. -/
def Group.key : Group → Column
  | .column c | .part _ c => c

/-- The output is about the row of a table. -/
inductive Output.At : Alias → Output → Prop where
  /-- The column is one of the row. -/
  | column {row : Alias} (c : Column) (h : c.tableAlias = row) : At row (.column c)
  /-- The column that is grouped by is. -/
  | group {row : Alias} (g : Group) (h : g.key.tableAlias = row) : At row (.group g)
  /-- The column that is aggregated is, if there is one. -/
  | aggregate {row : Alias} (function : AggregateFunction) (c : Option Column)
      (h : ∀ column, c = some column → column.tableAlias = row) : At row (.aggregate function c)
  /-- The join leads from the row, and the members and the condition are about the row it leads
  to. -/
  | related {row : Alias} (j : Join) (members : List (String × Output))
      (condition : List Predicate) (single : Bool) (hj : j.LinksFrom row)
      (hmembers : ∀ entry ∈ members, At j.tableAlias entry.2)
      (hcondition : ∀ p ∈ condition, p.At j.tableAlias) :
      At row (.related j members condition single)

/-- What rows are sorted by is about the row of a table. -/
inductive Sorting.At : Alias → Sorting → Prop where
  /-- The column is one of the row. -/
  | column {row : Alias} (c : Column) (h : c.tableAlias = row) : At row (.column c)
  /-- The join leads from the row, and what is behind it is about the row it leads to. -/
  | behind {row : Alias} (j : Join) (s : Sorting) (hj : j.LinksFrom row)
      (hs : At j.tableAlias s) : At row (.behind j s)

/-- A key of an order is about the row of a table. -/
inductive Order.At (row : Alias) : Order → Prop where
  /-- The columns are those of the row. -/
  | rank (columns : List Column) (term : String) (h : ∀ c ∈ columns, c.tableAlias = row) :
      At row (.rank columns term)
  /-- What rows are sorted by is about the row. -/
  | row (s : Sorting) (direction : SortDirection) (h : s.At row) : At row (.row s direction)
  /-- An output has a label and no table. -/
  | output (label : String) (direction : SortDirection) : At row (.output label direction)

/-- The tables of searches. -/
def tablesOf (ls : List Lookup) : List Alias :=
  ls.flatMap fun l => l.join.aliases

/-- The names of the tables of searches. -/
def tableNames (ls : List Lookup) : List String :=
  (tablesOf ls).map aliasName

@[simp] theorem tablesOf_nil : tablesOf [] = [] := rfl

@[simp] theorem tablesOf_append (ls ls' : List Lookup) :
    tablesOf (ls ++ ls') = tablesOf ls ++ tablesOf ls' :=
  List.flatMap_append

theorem tablesOf_cons (l : Lookup) (ls : List Lookup) :
    tablesOf (l :: ls) = l.join.aliases ++ tablesOf ls :=
  List.flatMap_cons

@[simp] theorem tableNames_nil : tableNames [] = [] := rfl

@[simp] theorem tableNames_append (ls ls' : List Lookup) :
    tableNames (ls ++ ls') = tableNames ls ++ tableNames ls' := by
  simp [tableNames]

theorem tableNames_cons (l : Lookup) (ls : List Lookup) :
    tableNames (l :: ls) = l.join.aliases.map aliasName ++ tableNames ls := by
  simp [tableNames, tablesOf_cons]

/-! ## Tests -/

variable {P : String → Prop} {known : List String} {row : Alias}

theorem involves_operand {o : Operand} (hover : o.Over P)
    (hrow : aliasName o.column.tableAlias ∈ known) : Involves known [] [] o.sql := by
  obtain ⟨column, cast⟩ := o
  have hcolumn : Involves known [] [] column.sql := involves_column hrow
  cases cast with
  | none => exact hcolumn
  | some cast =>
      obtain ⟨family, hfamily⟩ := Option.isSome_iff_exists.1 (hover.cast cast rfl)
      obtain ⟨before, after, hcasts, -⟩ := List.lookup_eq_some_iff.1 hfamily
      -- the known casts are a fixed list
      have hall : ∀ entry ∈ castFamilies, Trails (")::" ++ entry.1) [.closing] := by decide
      have htrails : Trails (")::" ++ cast) [.closing] :=
        hall (cast, family) (hcasts ▸ List.mem_append_right before List.mem_cons_self)
      have hsql : (Operand.mk column (some cast)).sql = "(" ++ column.sql ++ (")::" ++ cast) := by
        simp [Operand.sql, String.append_assoc]
      rw [hsql]
      exact hcolumn.parenthesized (by decide) htrails

/-- A text that goes on behind one without names of its own. -/
theorem involves_behind {s t : String} (hs : Involves known [] [] s) (n : Nat) (after : String)
    (ht : t = s ++ after) (hafter : Trails after (Block.pairs n)) : Involves known [] [] t := by
  rw [ht]
  exact hs.tail n hafter

/-- Two texts with an OR between them. -/
theorem involves_either {s t : String} (hs : Involves known [] [] s) (ht : Involves known [] [] t) :
    Involves known [] [] ("(" ++ (s ++ (" OR " ++ t)) ++ ")") := by
  have hor : Apart " OR " := by decide
  have hboth := hs.append (hor.append t) (ht.lead (by decide))
  exact hboth.parenthesized (by decide) (by decide)

namespace Test

variable {o : Operand}

theorem involves_spatial (ho : Involves known [] [] o.sql) (s : Spatial) (geometry : String) :
    Involves known [] [] (spatialSql s o geometry).sql := by
  have hsql : (spatialSql s o geometry).sql =
      s.function ++ "(" ++ (o.sql ++ ", ST_GeomFromGeoJSON(%s)") ++ ")" := by
    simp [spatialSql, geometrySql, Fragment.placeholder, String.append_assoc]
  have hbefore : Leads (s.function ++ "(") [.opening] := by
    cases s <;> decide
  rw [hsql]
  exact (ho.tail 1 (by decide)).parenthesized hbefore (by decide)

theorem involves_empty (ho : Involves known [] [] o.sql) (kind : Container) :
    Involves known [] [] (emptySql kind o) := by
  have hvacant : Involves known [] [] (vacantSql kind o) := by
    cases kind with
    | array =>
        rw [vacantSql, ← String.append_assoc]
        exact ho.parenthesized (by decide) (by decide)
    | json => exact ho.tail 1 (by decide)
    | text => exact ho.tail 0 (by decide)
  rw [emptySql_eq]
  exact involves_either (ho.tail 0 (by decide)) hvacant

/-- The text of a test has no name in it but that of its operand's table. -/
theorem involves_write {t : Test} (hover : t.operand.Over P)
    (hrow : aliasName t.operand.column.tableAlias ∈ known) : Involves known [] [] t.write.sql := by
  have ho : Involves known [] [] t.operand.sql := involves_operand hover hrow
  cases t with
  | compare o c v =>
      refine involves_behind ho 0 (" " ++ c.sql ++ " %s") (sql_behind rfl) ?_
      cases c <;> decide
  | isNull o => exact involves_behind ho 0 " IS NULL" (sql_behind rfl) (by decide)
  | isNotNull o => exact involves_behind ho 0 " IS NOT NULL" (sql_behind rfl) (by decide)
  | anyOf o vs =>
      exact involves_behind ho 1 " = ANY(%s)" (sql_behind rfl) (by decide)
  | noneOf o vs =>
      rw [sql_noneOf]
      exact involves_either (ho.tail 0 (by decide)) (ho.tail 1 (by decide))
  | between o low high =>
      exact involves_behind ho 0 " BETWEEN %s AND %s" (sql_behind rfl) (by decide)
  | notBetween o low high =>
      exact involves_behind ho 0 " NOT BETWEEN %s AND %s" (sql_behind rfl) (by decide)
  | empty kind o =>
      rw [show (empty kind o).write.sql = emptySql kind o by simp [write]]
      exact involves_empty ho kind
  | notEmpty kind o =>
      rw [show (notEmpty kind o).write.sql = "NOT " ++ emptySql kind o by simp [write]]
      exact (involves_empty ho kind).lead (by decide)
  | length o v =>
      have hsql : (length o v).write.sql =
          "coalesce(" ++ ("cardinality(" ++ o.sql ++ "), 0") ++
            (") = " ++ Fragment.placeholder) := by
        have hbefore : "coalesce(cardinality(" = "coalesce(" ++ "cardinality(" := rfl
        have hafter : "), 0) = " = "), 0" ++ ") = " := rfl
        simp only [write, hbefore, hafter, Fragment.sql_append, Fragment.sql_ofText,
          Fragment.sql_ofValue, String.append_assoc]
      have hinner : Involves known [] [] ("cardinality(" ++ o.sql ++ "), 0") :=
        ho.parenthesized (by decide) (by decide)
      rw [hsql]
      exact hinner.parenthesized (by decide) (by decide)
  | jsonContains o v =>
      exact involves_behind ho 0 " @> %s::jsonb" (sql_behind rfl) (by decide)
  | anyKey o keys =>
      exact involves_behind ho 0 " ?| %s::text[]" (sql_behind rfl) (by decide)
  | allKeys o keys =>
      exact involves_behind ho 0 " ?& %s::text[]" (sql_behind rfl) (by decide)
  | jsonPath o path =>
      have hsql : (jsonPath o path).write.sql =
          "jsonb_path_exists(" ++ o.sql ++ ", %s::jsonpath)" := by
        simp [write, Fragment.placeholder, String.append_assoc]
      rw [hsql]
      exact ho.parenthesized (by decide) (by decide)
  | spatial s o geometry => exact involves_spatial ho s geometry
  | notSpatial s o geometry =>
      have hsql : (notSpatial s o geometry).write.sql =
          "NOT " ++ (spatialSql s o geometry).sql := by
        simp [write]
      rw [hsql]
      exact (involves_spatial ho s geometry).lead (by decide)
  | near o geometry distance =>
      have hsql : (near o geometry distance).write.sql =
          "ST_DWithin(" ++ (o.sql ++ "::geography, ST_GeomFromGeoJSON(%s)") ++
            "::geography, %s)" := by
        simp [write, geometrySql, Fragment.placeholder, String.append_assoc]
      rw [hsql]
      exact (ho.tail 1 (by decide)).parenthesized (by decide) (by decide)
  | search c pattern =>
      exact involves_behind ho 0 "::text ILIKE %s" (sql_behind rfl) (by decide)

end Test

/-! ## Joins -/

theorem involves_correlation {c : Correlation} {a b : Alias} (h : c.Links a b)
    (ha : aliasName a ∈ known) (hb : aliasName b ∈ known) : Involves known [] [] c.sql := by
  have hequal : Apart " = " := by decide
  have hleft : Involves known [] [] c.left.sql := involves_column (h.left.symm ▸ ha)
  have hright : Involves known [] [] c.right.sql := involves_column (h.right.symm ▸ hb)
  rw [Correlation.sql, String.append_assoc]
  exact hleft.append (hequal.append _) (hright.lead (by decide))

namespace Join

variable {j : Join}

/-- The names of the tables of a join. -/
def names (j : Join) : List String :=
  j.aliases.map aliasName

theorem name_mem_names (j : Join) : aliasName j.tableAlias ∈ j.names :=
  List.mem_map_of_mem List.mem_cons_self

theorem junction_mem_names {u : Junction} (h : j.junction = some u) :
    aliasName u.tableAlias ∈ j.names := by
  have hu : u.tableAlias ∈ j.aliases := by simp [aliases, h]
  exact List.mem_map_of_mem hu

/-- The tables of a join are given their names, and are linked where there are two. -/
theorem involves_fromSql (hj : j.LinksFrom row) (hknown : j.names ⊆ known) :
    Involves known j.names j.names j.fromSql := by
  have htable : Involves known [aliasName j.tableAlias] [aliasName j.tableAlias]
      (tableSql j.table j.tableAlias) := involves_tableSql _ _
  cases hj with
  | direct hnone hon =>
      have hnames : j.names = [aliasName j.tableAlias] := by simp [names, aliases, hnone]
      have hsql : j.fromSql = tableSql j.table j.tableAlias := by simp [fromSql, hnone]
      rw [hnames, hsql]
      exact htable
  | through u hsome htarget hon =>
      have hnames : j.names = [aliasName j.tableAlias, aliasName u.tableAlias] := by
        simp [names, aliases, hsome]
      have hsql : j.fromSql = tableSql u.table u.tableAlias ++ (" JOIN " ++
          (tableSql j.table j.tableAlias ++ (" ON " ++ u.on.sql))) := by
        simp [fromSql, hsome, String.append_assoc]
      have hjoin : Apart " JOIN " := by decide
      have hon : Apart " ON " := by decide
      have hlinks : Involves known [] [] u.on.sql :=
        involves_correlation htarget (hknown j.name_mem_names)
          (hknown (junction_mem_names hsome))
      have htarget := htable.append (hon.append _) (hlinks.lead (by decide))
      have hjunction : Involves known [aliasName u.tableAlias] [aliasName u.tableAlias]
          (tableSql u.table u.tableAlias) := involves_tableSql _ _
      have hboth := hjunction.append (hjoin.append _) (htarget.lead (by decide))
      rw [hnames, hsql]
      exact hboth.perm (.swap _ _ _) (.swap _ _ _)

/-- What a join demands of the rows is said of its own tables and of that of the row. -/
theorem involvesEach_onFragments (hj : j.LinksFrom row) (hrow : aliasName row ∈ known)
    (hknown : j.names ⊆ known) : InvolvesEach known [] (j.onFragments.map Fragment.sql) := by
  have hon : Involves known [] [] j.on.sql := by
    cases hj with
    | direct hnone hon => exact involves_correlation hon (hknown j.name_mem_names) hrow
    | through u hsome htarget hon =>
        exact involves_correlation hon (hknown (junction_mem_names hsome)) hrow
  have halive : Involves known [] [] (Test.alive j.tableAlias).write.sql :=
    Test.involves_write (Test.over_alive (P := fun _ => True) trivial j.tableAlias)
      (hknown j.name_mem_names)
  refine .of_forall (List.forall_mem_map.2 ?_)
  unfold onFragments
  refine List.forall_mem_cons.2 ⟨?_, ?_⟩
  · rw [Fragment.sql_ofText]
    exact hon
  · split
    · exact List.forall_mem_singleton.2 halive
    · exact List.forall_mem_nil _

/-- The body of a search gives names to the tables of its join. -/
theorem involves_behind (hj : j.LinksFrom row) (hrow : aliasName row ∈ known)
    (hknown : j.names ⊆ known) {fs : List Fragment} {inner : List String}
    (hfs : InvolvesEach known inner (fs.map Fragment.sql)) :
    Apart (Predicate.writeBehind j fs).sql ∧
      Involves known j.names (j.names ++ inner) (Predicate.writeBehind j fs).sql := by
  have hfrom : Apart " FROM " := by decide
  have hwhere : Apart " WHERE " := by decide
  have hsql : (Predicate.writeBehind j fs).sql = " FROM " ++ (j.fromSql ++ (" WHERE " ++
      String.intercalate " AND " ((j.onFragments ++ fs).map Fragment.sql))) := by
    rw [Predicate.writeBehind, Fragment.sql_append, Fragment.sql_ofText, Fragment.sql_joined]
    simp only [String.append_assoc]
  have hconditions : Involves known [] inner
      (String.intercalate " AND " ((j.onFragments ++ fs).map Fragment.sql)) := by
    rw [List.map_append]
    exact ((involvesEach_onFragments hj hrow hknown).append hfs).intercalate (by decide) (by decide)
  have hbody := (involves_fromSql hj hknown).append (hwhere.append _)
    (hconditions.lead (by decide))
  rw [hsql]
  refine ⟨hfrom.append _, ?_⟩
  rw [List.append_nil] at hbody
  exact hbody.lead (by decide)

end Join

/-- A search in parentheses involves the tables of its join and those that are involved in it. -/
theorem involves_search {j : Join} (hj : j.LinksFrom row) (hrow : aliasName row ∈ known)
    {fs : List Fragment} {inner outer : List String} {selected ending : String}
    (hselected : Involves (j.names ++ known) [] outer selected)
    (hfs : InvolvesEach (j.names ++ known) inner (fs.map Fragment.sql))
    {before : String} (hbefore : Leads before [.opening]) (hending : Trails ending [.closing]) :
    Involves known [] (j.names ++ (outer ++ inner))
      (before ++ (selected ++ (Predicate.writeBehind j fs).sql) ++ ending) := by
  obtain ⟨hapart, hbehind⟩ := Join.involves_behind hj (List.mem_append_right _ hrow)
    (List.subset_append_left _ _) hfs
  have hall := hselected.append hapart hbehind
  -- what is selected stands before the tables, but its tables are numbered after them
  have hnames : (outer ++ (j.names ++ inner)).Perm (j.names ++ (outer ++ inner)) := by
    rw [← List.append_assoc, ← List.append_assoc]
    exact List.perm_append_comm.append_right inner
  exact (hall.perm (.refl _) hnames).group hbefore hending

/-- Fragments with a separator between them in parentheses. -/
theorem involves_members {fs : List Fragment} {names : List String} {separator : String}
    (h : InvolvesEach known names (fs.map Fragment.sql)) (hleads : Leads separator [])
    (hapart : Apart separator) :
    Involves known [] names (Fragment.parenthesized (Fragment.joined separator fs)).sql := by
  have hsql : (Fragment.parenthesized (Fragment.joined separator fs)).sql =
      "(" ++ String.intercalate separator (fs.map Fragment.sql) ++ ")" := by
    rw [Fragment.parenthesized, Fragment.sql_append, Fragment.sql_append, Fragment.sql_ofText,
      Fragment.sql_ofText, Fragment.sql_joined]
  rw [hsql]
  exact (h.intercalate hleads hapart).parenthesized (by decide) (by decide)

/-! ## Predicates -/

namespace Predicate

mutual

/-- **The text of a predicate** about a row involves the tables of its searches. -/
theorem involves_write {p : Predicate} {known : List String} {row : Alias} (hover : p.Over P)
    (hat : p.At row) (hrow : aliasName row ∈ known) :
    Involves known [] (tableNames p.lookups) p.write.sql := by
  match p with
  | .constant b =>
      cases b with
      | true => exact involves_nothing (by decide)
      | false => exact involves_nothing (by decide)
  | .test t =>
      cases hover with
      | test _ hover =>
          cases hat with
          | test _ htable => exact Test.involves_write hover (htable.symm ▸ hrow)
  | .conj ps =>
      cases hover with
      | conj _ hover =>
          cases hat with
          | conj _ hat =>
              exact involves_members (involvesEach_writeAll hover hat hrow) (by decide) (by decide)
  | .disj ps =>
      cases hover with
      | disj _ hover =>
          cases hat with
          | disj _ hat =>
              exact involves_members (involvesEach_writeAll hover hat hrow) (by decide) (by decide)
  | .neg p =>
      cases hover with
      | neg _ hover =>
          cases hat with
          | neg _ hat =>
              have hsql : (neg p).write.sql = "NOT (" ++ p.write.sql ++ ")" := by
                have hbefore : "NOT (" = "NOT " ++ "(" := rfl
                simp only [write, Fragment.parenthesized, hbefore, Fragment.sql_append,
                  Fragment.sql_ofText, String.append_assoc]
              rw [hsql]
              exact (involves_write hover hat hrow).parenthesized (by decide) (by decide)
  | .exist j p =>
      cases hover with
      | exist _ _ hj hover =>
          cases hat with
          | exist _ _ hlinks hat =>
              have hsql : (exist j p).write.sql =
                  "EXISTS (" ++ ("SELECT 1" ++ (writeBehind j [write p]).sql) ++ ")" := by
                have hbefore : "EXISTS (SELECT 1" = "EXISTS (" ++ "SELECT 1" := rfl
                simp only [write, hbefore, Fragment.sql_append, Fragment.sql_ofText,
                  String.append_assoc]
              have hp : Involves (j.names ++ known) [] (tableNames p.lookups) p.write.sql :=
                involves_write hover hat (List.mem_append_left _ j.name_mem_names)
              have hall : InvolvesEach (j.names ++ known) (tableNames p.lookups ++ [])
                  ([write p].map Fragment.sql) := .cons hp .nil
              have hsearch := involves_search hlinks hrow
                (involves_nothing (by decide) : Involves _ [] [] "SELECT 1") hall
                (by decide : Leads "EXISTS (" [.opening]) (by decide : Trails ")" [.closing])
              rw [hsql, lookups, tableNames_cons]
              rwa [List.nil_append, List.append_nil] at hsearch

/-- So do the texts of several predicates. -/
theorem involvesEach_writeAll {ps : List Predicate} {known : List String} {row : Alias}
    (hover : ∀ p ∈ ps, p.Over P) (hat : ∀ p ∈ ps, p.At row) (hrow : aliasName row ∈ known) :
    InvolvesEach known (tableNames (lookupsAll ps)) ((writeAll ps).map Fragment.sql) := by
  match ps with
  | [] => exact .nil
  | p :: ps =>
      obtain ⟨hover, hovers⟩ := List.forall_mem_cons.1 hover
      obtain ⟨hat, hats⟩ := List.forall_mem_cons.1 hat
      rw [lookupsAll, tableNames_append, writeAll, List.map_cons]
      exact .cons (involves_write hover hat hrow) (involvesEach_writeAll hovers hats hrow)

end

end Predicate

/-! ## Outputs -/

theorem involves_group {g : Group} (h : aliasName g.key.tableAlias ∈ known) :
    Involves known [] [] g.sql := by
  have hkey : Involves known [] [] g.key.sql := involves_column h
  cases g with
  | column c => exact hkey
  | part part c =>
      have hbefore : Leads ("EXTRACT(" ++ datePartKeyword part ++ " FROM ") [.opening] := by
        cases part <;> decide
      exact hkey.parenthesized hbefore (by decide)

theorem involves_aggregateSql {argument : String} (h : Involves known [] [] argument)
    (function : AggregateFunction) : Involves known [] [] (aggregateSql function argument) := by
  cases function <;> exact h.parenthesized (by decide) (by decide)

namespace Output

/-- The search for related rows involves its tables and those that are involved in the members and
in the conditions. -/
theorem involves_related {j : Join} {members : List (String × Output)}
    {condition : List Predicate} {outer inner : List String} (single : Bool)
    (hj : j.LinksFrom row) (hrow : aliasName row ∈ known)
    (hmembers : InvolvesEach (j.names ++ known) outer ((writeMembers members).map Fragment.sql))
    (hcondition : InvolvesEach (j.names ++ known) inner
      ((Predicate.writeAll condition).map Fragment.sql)) :
    Involves known [] (j.names ++ (outer ++ inner))
      (related j members condition single).write.sql := by
  have hobject : Involves (j.names ++ known) [] outer
      ("json_build_object(" ++ String.intercalate ", " ((writeMembers members).map Fragment.sql) ++
        ")") :=
    (hmembers.intercalate (by decide) (by decide)).parenthesized (by decide) (by decide)
  cases single with
  | true =>
      have hsql : (related j members condition true).write.sql =
          "(" ++ (("SELECT " ++ ("json_build_object(" ++
            String.intercalate ", " ((writeMembers members).map Fragment.sql) ++ ")")) ++
            (Predicate.writeBehind j (Predicate.writeAll condition)).sql) ++ " LIMIT 1)" := by
        have hbefore : "(SELECT " = "(" ++ "SELECT " := rfl
        simp only [write, hbefore, if_true, Fragment.sql_append, Fragment.sql_ofText,
          Fragment.sql_joined, String.append_assoc]
      rw [hsql]
      exact involves_search hj hrow (hobject.lead (by decide)) hcondition (by decide) (by decide)
  | false =>
      have hsql : (related j members condition false).write.sql =
          "(" ++ (("SELECT coalesce(" ++ ("json_agg(" ++ ("json_build_object(" ++
            String.intercalate ", " ((writeMembers members).map Fragment.sql) ++ ")") ++
            "), '[]'::json") ++ ")") ++
            (Predicate.writeBehind j (Predicate.writeAll condition)).sql) ++ ")" := by
        have hbefore : "(SELECT coalesce(json_agg(" =
            "(" ++ ("SELECT coalesce(" ++ "json_agg(") := rfl
        have hafter : "), '[]'::json)" = "), '[]'::json" ++ ")" := rfl
        simp only [write, hbefore, hafter, Bool.false_eq_true, if_false, Fragment.sql_append,
          Fragment.sql_ofText, Fragment.sql_joined, String.append_assoc]
      have hrows := hobject.parenthesized (by decide : Leads "json_agg(" [.opening])
        (by decide : Trails "), '[]'::json" [.closing])
      have hselected := hrows.parenthesized (by decide : Leads "SELECT coalesce(" [.opening])
        (by decide : Trails ")" [.closing])
      rw [hsql]
      exact involves_search hj hrow hselected hcondition (by decide) (by decide)

mutual

/-- **The text of an output** about a row involves the tables of its searches. -/
theorem involves_write {o : Output} {known : List String} {row : Alias} (hover : o.Over P)
    (hat : o.At row) (hrow : aliasName row ∈ known) :
    Involves known [] (tableNames o.lookups) o.write.sql := by
  match o with
  | .column c =>
      cases hat with
      | column _ htable =>
          rw [write, Fragment.sql_ofText]
          exact involves_column (htable.symm ▸ hrow)
  | .group g =>
      cases hat with
      | group _ htable =>
          rw [write, Fragment.sql_ofText]
          exact involves_group (htable.symm ▸ hrow)
  | .aggregate function c =>
      cases hat with
      | aggregate _ _ htable =>
          cases c with
          | none =>
              have hsql : (aggregate function none).write.sql = aggregateSql function "*" :=
                Fragment.sql_ofText
              rw [hsql]
              exact involves_aggregateSql (involves_nothing (by decide)) function
          | some c =>
              have hsql : (aggregate function (some c)).write.sql = aggregateSql function c.sql :=
                Fragment.sql_ofText
              rw [hsql]
              exact involves_aggregateSql (involves_column ((htable c rfl).symm ▸ hrow)) function
  | .related j members condition single =>
      cases hover with
      | related _ _ _ _ hj hnames hmembers hcondition =>
          cases hat with
          | related _ _ _ _ hlinks hmembersAt hconditionAt =>
              have hinner : aliasName j.tableAlias ∈ j.names ++ known :=
                List.mem_append_left _ j.name_mem_names
              rw [lookups, tableNames_cons, tableNames_append]
              exact involves_related single hlinks hrow
                (involvesEach_writeMembers hmembers hmembersAt hinner)
                (Predicate.involvesEach_writeAll hcondition hconditionAt hinner)

/-- So do the texts of named members. -/
theorem involvesEach_writeMembers {members : List (String × Output)} {known : List String}
    {row : Alias} (hover : ∀ entry ∈ members, entry.2.Over P)
    (hat : ∀ entry ∈ members, entry.2.At row) (hrow : aliasName row ∈ known) :
    InvolvesEach known (tableNames (lookupsAll members))
      ((writeMembers members).map Fragment.sql) := by
  match members with
  | [] => exact .nil
  | (name, o) :: members =>
      obtain ⟨hover, hovers⟩ := List.forall_mem_cons.1 hover
      obtain ⟨hat, hats⟩ := List.forall_mem_cons.1 hat
      have hlabel : Leads (literal name ++ ", ") [] :=
        (leads_literal name).append_leads (by decide : Leads ", " [])
      have hmember : Involves known [] (tableNames o.lookups)
          (Fragment.ofText (literal name ++ ", ") ++ write o).sql := by
        rw [Fragment.sql_append, Fragment.sql_ofText]
        exact (involves_write hover hat hrow).lead hlabel
      rw [lookupsAll, tableNames_append, writeMembers, List.map_cons]
      exact .cons hmember (involvesEach_writeMembers hovers hats hrow)

end

/-- So do the texts of labelled outputs. -/
theorem involvesEach_labelled {outputs : List (String × Output)}
    (hover : ∀ entry ∈ outputs, entry.2.Over P) (hat : ∀ entry ∈ outputs, entry.2.At row)
    (hrow : aliasName row ∈ known) :
    InvolvesEach known (tableNames (lookupsAll outputs))
      ((outputs.map fun entry => entry.2.writeLabelled entry.1).map Fragment.sql) := by
  induction outputs with
  | nil => exact .nil
  | cons entry outputs ih =>
      obtain ⟨hover, hovers⟩ := List.forall_mem_cons.1 hover
      obtain ⟨hat, hats⟩ := List.forall_mem_cons.1 hat
      have hentry : Involves known [] (tableNames entry.2.lookups)
          (entry.2.writeLabelled entry.1).sql := by
        rw [writeLabelled, Fragment.sql_append, Fragment.sql_ofText]
        exact (involves_write hover hat hrow).tail 0 (trails_label entry.1)
      rw [lookupsAll, tableNames_append, List.map_cons, List.map_cons]
      exact .cons hentry (ih hovers hats)

end Output

/-! ## Order -/

/-- The text of what rows are sorted by involves the tables of its searches. -/
theorem Sorting.involves_write {s : Sorting} {known : List String} {row : Alias} (hat : s.At row)
    (hrow : aliasName row ∈ known) : Involves known [] (tableNames s.lookups) s.write.sql := by
  induction hat generalizing known with
  | column c htable =>
      rw [Sorting.write, Fragment.sql_ofText]
      exact involves_column (htable.symm ▸ hrow)
  | behind j s hj hs ih =>
      have hsql : (Sorting.behind j s).write.sql =
          "(" ++ (("SELECT " ++ s.write.sql) ++ (Predicate.writeBehind j []).sql) ++
            " LIMIT 1)" := by
        have hbefore : "(SELECT " = "(" ++ "SELECT " := rfl
        simp only [Sorting.write, hbefore, Fragment.sql_append, Fragment.sql_ofText,
          String.append_assoc]
      have hselected := (ih (List.mem_append_left known j.name_mem_names)).lead
        (by decide : Leads "SELECT " [])
      have hnone : InvolvesEach (j.names ++ known) []
          (([] : List Fragment).map Fragment.sql) := .nil
      have hsearch := involves_search hj hrow hselected hnone
        (by decide : Leads "(" [.opening]) (by decide : Trails " LIMIT 1)" [.closing])
      rw [List.append_nil] at hsearch
      rw [hsql, lookups, tableNames_cons]
      exact hsearch

theorem trails_direction (direction : SortDirection) :
    Trails (" " ++ directionKeyword direction) [] := by
  cases direction <;> decide

/-- The rank names no table but those of its columns. -/
theorem Order.involves_rank {columns : List Column} (term : String)
    (h : ∀ c ∈ columns, aliasName c.tableAlias ∈ known) :
    Involves known [] [] (Order.rank columns term).write.sql := by
  have hcolumns : InvolvesEach known [] (columns.map fun c => c.sql ++ "::text") := by
    refine .of_forall (List.forall_mem_map.2 fun c hc => ?_)
    exact (involves_column (h c hc)).tail 0 (by decide)
  have hsql : (Order.rank columns term).write.sql =
      "ts_rank(" ++ (("to_tsvector('simple', " ++ ("concat_ws(' ', " ++
        String.intercalate ", " (columns.map fun c => c.sql ++ "::text") ++ ")") ++ ")") ++
        (", plainto_tsquery('simple', " ++ Fragment.placeholder ++ ")")) ++ ") DESC" := by
    have hbefore : "ts_rank(to_tsvector('simple', concat_ws(' ', " =
        "ts_rank(" ++ ("to_tsvector('simple', " ++ "concat_ws(' ', ") := rfl
    have hbetween : ")), plainto_tsquery('simple', " =
        ")" ++ (")" ++ ", plainto_tsquery('simple', ") := rfl
    have hafter : ")) DESC" = ")" ++ ") DESC" := rfl
    simp only [Order.write, hbefore, hbetween, hafter, Fragment.sql_append, Fragment.sql_ofText,
      Fragment.sql_ofValue, String.append_assoc]
  have hlist : Involves known [] []
      (String.intercalate ", " (columns.map fun c => c.sql ++ "::text")) :=
    hcolumns.intercalate (by decide) (by decide)
  have hwords := hlist.parenthesized
    (by decide : Leads "concat_ws(' ', " [.opening]) (by decide : Trails ")" [.closing])
  have hvector := hwords.parenthesized (by decide : Leads "to_tsvector('simple', " [.opening])
    (by decide : Trails ")" [.closing])
  rw [hsql]
  exact (hvector.tail 1 (by decide)).parenthesized (by decide) (by decide)

/-- The text of a key of an order involves the tables of its searches. -/
theorem Order.involves_write {o : Order} (hat : o.At row) (hrow : aliasName row ∈ known) :
    Involves known [] (tableNames o.lookups) o.write.sql := by
  cases hat with
  | rank columns term h =>
      refine Order.involves_rank term fun c hc => ?_
      rw [h c hc]
      exact hrow
  | row s direction h =>
      rw [Order.write, Fragment.sql_append, Fragment.sql_ofText]
      exact (Sorting.involves_write h hrow).tail 0 (trails_direction direction)
  | output label direction =>
      have hlabel : Involves known [] [] (identifier label) :=
        involves_nothing (leads_identifier label).reads
      rw [Order.write, Fragment.sql_ofText, String.append_assoc]
      exact hlabel.tail 0 (trails_direction direction)

end Warden.Sql
