import Warden.Proofs.Query.Aliases
import Warden.Proofs.Query.Columns
import Warden.Proofs.Sql.Outline

/-! # Statements under other names

A statement can be put under other names of tables, columns, labels and members, which change
nothing but what stands between quotes (**`Statement.Rendered.respelled`**). Names may be changed
into any others, also all into one, so what stands outside of quotes depends on no name. -/

namespace Warden

open Sql

variable {σ : String → String} {P : String → Prop}

namespace Sql

/-! ## Other names -/

/-- The group key under another name. -/
def Group.withNames (σ : String → String) : Group → Group
  | .column c => .column (c.exchanged σ id)
  | .part p c => .part p (c.exchanged σ id)

namespace Output

mutual

/-- The output under other names. -/
def withNames (σ : String → String) : Output → Output
  | column c => column (c.exchanged σ id)
  | group g => group (g.withNames σ)
  | aggregate function c => aggregate function (c.map (Column.exchanged σ id))
  | related j members condition single =>
    related (j.exchanged σ id) (membersWithNames σ members)
      (Predicate.exchangedAll σ id condition) single

/-- The members under other names. -/
def membersWithNames (σ : String → String) : List (String × Output) → List (String × Output)
  | [] => []
  | (name, o) :: rest => (σ name, withNames σ o) :: membersWithNames σ rest

end

theorem writeMembers_eq_map (members : List (String × Output)) :
    writeMembers members =
      members.map fun entry => Fragment.ofText (literal entry.1 ++ ", ") ++ entry.2.write := by
  induction members with
  | nil => rfl
  | cons entry members ih => rw [writeMembers, ih, List.map_cons]

theorem membersWithNames_eq_map (members : List (String × Output)) :
    membersWithNames σ members = members.map fun entry => (σ entry.1, entry.2.withNames σ) := by
  induction members with
  | nil => rfl
  | cons entry members ih => rw [membersWithNames, ih, List.map_cons]

end Output

/-- What rows are sorted by under other names. -/
def Sorting.withNames (σ : String → String) : Sorting → Sorting
  | .column c => .column (c.exchanged σ id)
  | .behind j s => .behind (j.exchanged σ id) (s.withNames σ)

/-- The key of an order under other names. -/
def Order.withNames (σ : String → String) : Order → Order
  | .rank columns term => .rank (columns.map (Column.exchanged σ id)) term
  | .row s direction => .row (s.withNames σ) direction
  | .output label direction => .output (σ label) direction

/-- The statement that reads rows under other names. -/
def Select.withNames (σ : String → String) (s : Select) : Select :=
  { s with
    outputs := s.outputs.map fun (label, o) => (σ label, o.withNames σ)
    table := σ s.table
    conditions := s.conditions.map (Predicate.exchanged σ id)
    groups := s.groups.map (Group.withNames σ)
    order := s.order.map (Order.withNames σ) }

/-- The statement that counts under other names. -/
def Count.withNames (σ : String → String) : Count → Count
  | .one => .one
  | .rows table conditions => .rows (σ table) (conditions.map (Predicate.exchanged σ id))
  | .groups table conditions keys =>
    .groups (σ table) (conditions.map (Predicate.exchanged σ id)) (keys.map (Group.withNames σ))

/-- The statement that writes under other names. -/
def Change.withNames (σ : String → String) : Change → Change
  | .insert table values key =>
    .insert (σ table) (values.map fun (name, w) => (σ name, w)) (σ key)
  | .update table values conditions key =>
    .update (σ table) (values.map fun (name, w) => (σ name, w))
      (conditions.map (Predicate.exchanged σ id)) (σ key)
  | .mark table conditions key =>
    .mark (σ table) (conditions.map (Predicate.exchanged σ id)) (σ key)
  | .delete table conditions key =>
    .delete (σ table) (conditions.map (Predicate.exchanged σ id)) (σ key)
  | .link table sourceColumn targetColumn source targets =>
    .link (σ table) (σ sourceColumn) (σ targetColumn) source targets

end Sql

/-- The statement under other names of tables, columns, labels and members. Statements about the
tables of the service itself have names of their own, which stand without quotes. -/
def Statement.withNames (σ : String → String) : Statement → Statement
  | .select s => .select (s.withNames σ)
  | .count c => .count (c.withNames σ)
  | .change c => .change (c.withNames σ)
  | s => s

namespace Sql

/-! ## Lists and clauses -/

variable {s t s' t' : String}

theorem respelled_placeholder : Respelled σ Fragment.placeholder Fragment.placeholder :=
  respelled_ofList (by decide)

/-- Texts in a list. -/
theorem respelled_list {α : Type} {as : List α} {write write' : α → String}
    (h : ∀ a ∈ as, Respelled σ (write a) (write' a)) :
    Respelled σ (String.intercalate ", " (as.map write))
      (String.intercalate ", " (as.map write')) := by
  refine congruent_respelled.intercalate (isStart_ofList (by decide)) (isEnd_ofList (by decide)) ?_
  rw [List.forall₂_map_left_iff, List.forall₂_map_right_iff, List.forall₂_same]
  exact h

/-- Fragments in a list. -/
theorem respelled_joined {α : Type} {as : List α} {write write' : α → Fragment}
    (h : ∀ a ∈ as, Respelled σ (write a).sql (write' a).sql) :
    Respelled σ (Fragment.joined ", " (as.map write)).sql
      (Fragment.joined ", " (as.map write')).sql := by
  rw [Fragment.sql_joined, Fragment.sql_joined, List.map_map, List.map_map]
  exact respelled_list h

/-- A clause that may be missing, and the same one under other names. -/
inductive Clause (σ : String → String) : String → String → Prop where
  /-- It is missing. -/
  | missing : Clause σ "" ""
  /-- It begins with words. -/
  | given {s t : String} (words : String) (h : Respelled σ s t) (hwords : isMiddle words = true) :
      Clause σ (words ++ s) (words ++ t)

theorem Respelled.clause (h : Respelled σ s t) (h' : Clause σ s' t') :
    Respelled σ (s ++ s') (t ++ t') := by
  cases h' with
  | missing => simpa using h
  | given words h' hwords => exact h.between words h' hwords

/-! ## Outputs -/

theorem respelled_column (c : Column) : Respelled σ c.sql (c.exchanged σ id).sql :=
  exchange_respelled.column c

theorem respelled_keyword (p : DatePart) : Respelled σ (datePartKeyword p) (datePartKeyword p) := by
  cases p <;> exact respelled_ofList (by decide)

theorem respelled_group (g : Group) : Respelled σ g.sql (g.withNames σ).sql := by
  cases g with
  | column c => exact respelled_column c
  | part p c =>
      have hpart := (respelled_keyword p).between " FROM " (respelled_column (σ := σ) c)
        (isMiddle_ofList (by decide))
      have hwhole := (hpart.lead "EXTRACT(" (isStart_ofList (by decide))).tail ")::integer"
        (isEnd_ofList (by decide))
      simpa [Group.sql, Group.withNames, String.append_assoc] using hwhole

theorem respelled_aggregateSql (function : AggregateFunction) (h : Respelled σ s t) :
    Respelled σ (aggregateSql function s) (aggregateSql function t) := by
  have hargument (before : String) (hbefore : isStart before = true) :
      Respelled σ (before ++ s ++ ")") (before ++ t ++ ")") :=
    (h.lead before hbefore).tail ")" (isEnd_ofList (by decide))
  cases function <;> exact hargument _ (isStart_ofList (by decide))

/-- Where the rows behind a join come from. -/
theorem clause_behind (j : Join) {fs gs : List Fragment}
    (h : List.Forall₂ (fun f g => Respelled σ f.sql g.sql) fs gs) :
    Clause σ (Predicate.writeBehind j fs).sql
      (Predicate.writeBehind (j.exchanged σ id) gs).sql := by
  have hclause := Clause.given " FROM " (exchange_respelled.searched j h)
    (isMiddle_ofList (by decide))
  simpa [Predicate.writeBehind, String.append_assoc] using hclause

/-- Members are written in order, each behind its name. -/
theorem respelled_members {members : List (String × Output)}
    (h : ∀ entry ∈ members, Respelled σ entry.2.write.sql (entry.2.withNames σ).write.sql) :
    Respelled σ (Fragment.joined ", " (Output.writeMembers members)).sql
      (Fragment.joined ", " (Output.writeMembers (Output.membersWithNames σ members))).sql := by
  rw [Output.membersWithNames_eq_map, Output.writeMembers_eq_map, Output.writeMembers_eq_map,
    List.map_map]
  refine respelled_joined fun entry hentry => ?_
  have hmember := (respelled_literal entry.1).between ", " (h entry hentry)
    (isMiddle_ofList (by decide))
  simpa [String.append_assoc] using hmember

/-- An output has the same text under other names but for these names. -/
theorem Output.respelled_write {o : Output} (h : o.Over P) :
    Respelled σ o.write.sql (o.withNames σ).write.sql := by
  induction h with
  | column c _ => simpa [write, withNames] using respelled_column c
  | group g _ => simpa [write, withNames] using respelled_group g
  | aggregate function c _ =>
      cases c with
      | none =>
          have hall : Respelled σ "*" "*" := respelled_ofList (by decide)
          simpa [write, withNames] using respelled_aggregateSql function hall
      | some c =>
          simpa [write, withNames] using respelled_aggregateSql function (respelled_column c)
  | related j members condition single _ _ _ hcondition ih =>
      have hmembers := (respelled_members ih).lead "json_build_object("
        (isStart_ofList (by decide))
      have hobject := hmembers.tail ")" (isEnd_ofList (by decide))
      have hbehind := clause_behind j <| Exchange.writeAll fun p hp =>
        (exchange_respelled (σ := σ)).write (hcondition p hp)
      cases single with
      | true =>
          have hfirst := (hobject.lead "(SELECT " (isStart_ofList (by decide))).clause hbehind
          have hwhole := hfirst.tail " LIMIT 1)" (isEnd_ofList (by decide))
          simpa [write, withNames, String.append_assoc] using hwhole
      | false =>
          have hobjects := hobject.lead "(SELECT coalesce(json_agg(" (isStart_ofList (by decide))
          have hlist := hobjects.tail "), '[]'::json)" (isEnd_quoted (by decide +kernel))
          have hwhole := (hlist.clause hbehind).tail ")" (isEnd_ofList (by decide))
          simpa only [write, withNames, Fragment.sql_append, Fragment.sql_ofText,
            Bool.false_eq_true, if_false] using hwhole

/-- An output under its label. -/
theorem Output.respelled_writeLabelled {o : Output} (h : o.Over P) (label : String) :
    Respelled σ (o.writeLabelled label).sql ((o.withNames σ).writeLabelled (σ label)).sql := by
  have hlabelled := (respelled_write (σ := σ) h).between " AS " (respelled_identifier label)
    (isMiddle_ofList (by decide))
  simpa [writeLabelled] using hlabelled

/-! ## Order -/

/-- What rows are sorted by has the same text under other names but for these names. -/
theorem Sorting.respelled_write (s : Sorting) :
    Respelled σ s.write.sql (s.withNames σ).write.sql := by
  induction s with
  | column c => simpa [write, withNames] using respelled_column c
  | behind j s ih =>
      have hfirst := (ih.lead "(SELECT " (isStart_ofList (by decide))).clause
        (clause_behind j .nil)
      have hwhole := hfirst.tail " LIMIT 1)" (isEnd_ofList (by decide))
      simpa [write, withNames, String.append_assoc] using hwhole

/-- A direction behind what is sorted by. -/
theorem Respelled.directed (h : Respelled σ s t) (direction : SortDirection) :
    Respelled σ (s ++ (" " ++ directionKeyword direction))
      (t ++ (" " ++ directionKeyword direction)) := by
  cases direction with
  | ascending => exact h.tail " ASC" (isEnd_ofList (by decide))
  | descending => exact h.tail " DESC" (isEnd_ofList (by decide))

/-- A key of an order has the same text under other names but for these names. -/
theorem Order.respelled_write (o : Order) :
    Respelled σ o.write.sql (o.withNames σ).write.sql := by
  cases o with
  | rank columns term =>
      have hcolumns := respelled_list (σ := σ) fun (c : Column) (_ : c ∈ columns) =>
        (respelled_column c).tail "::text" (isEnd_ofList (by decide))
      have hterm := (respelled_placeholder (σ := σ)).tail ")) DESC" (isEnd_ofList (by decide))
      have hrank := hcolumns.between ")), plainto_tsquery('simple', " hterm
        (isMiddle_quoted (by decide +kernel))
      have hwhole := hrank.lead "ts_rank(to_tsvector('simple', concat_ws(' ', "
        (isStart_quoted (by decide +kernel))
      simpa [write, withNames, Function.comp_def, String.append_assoc] using hwhole
  | row s direction =>
      have hrow := (s.respelled_write (σ := σ)).directed direction
      simpa [write, withNames] using hrow
  | output label direction =>
      have hlabel := (respelled_identifier (σ := σ) label).directed direction
      simpa [write, withNames, String.append_assoc] using hlabel

/-! ## Statements that read -/

/-- The rows of a table, and what must hold of them. -/
theorem clause_base (table : String) {conditions : List Predicate}
    (h : ∀ p ∈ conditions, p.Over P) :
    Clause σ (writeBase table conditions).sql
      (writeBase (σ table) (conditions.map (Predicate.exchanged σ id))).sql := by
  have hrows := (respelled_tableSql (σ := σ) table baseAlias).between " WHERE "
    (exchange_respelled.writeConditions h) (isMiddle_ofList (by decide))
  have hclause := Clause.given " FROM " hrows (isMiddle_ofList (by decide))
  simpa [writeBase, String.append_assoc] using hclause

theorem clause_groups (groups : List Group) :
    Clause σ (writeGroups groups).sql (writeGroups (groups.map (Group.withNames σ))).sql := by
  cases groups with
  | nil => exact .missing
  | cons g groups =>
      have hgroups := respelled_list (σ := σ) fun (key : Group) (_ : key ∈ g :: groups) =>
        respelled_group key
      have hclause := Clause.given " GROUP BY " hgroups (isMiddle_ofList (by decide))
      simpa [writeGroups, Function.comp_def] using hclause

theorem clause_order (order : List Order) :
    Clause σ
      (Fragment.sql (if order.isEmpty then []
        else Fragment.ofText " ORDER BY " ++ Fragment.joined ", " (order.map Order.write)))
      (Fragment.sql (if (order.map (Order.withNames σ)).isEmpty then []
        else Fragment.ofText " ORDER BY " ++
          Fragment.joined ", " ((order.map (Order.withNames σ)).map Order.write))) := by
  cases order with
  | nil => exact .missing
  | cons o order =>
      have horder := respelled_joined (σ := σ) fun (key : Order) (_ : key ∈ o :: order) =>
        key.respelled_write
      have hclause := Clause.given " ORDER BY " horder (isMiddle_ofList (by decide))
      simpa [Function.comp_def] using hclause

/-- A clause with a value, which no name stands in. -/
theorem clause_value (words : String) (given : Prop) [Decidable given] (v : Value)
    (hwords : isMiddle words = true) :
    Clause σ (Fragment.sql (if given then Fragment.ofText words ++ Fragment.ofValue v else []))
      (Fragment.sql (if given then Fragment.ofText words ++ Fragment.ofValue v else [])) := by
  by_cases hgiven : given
  · simpa [hgiven] using Clause.given words respelled_placeholder hwords
  · rw [if_neg hgiven]
    exact .missing

/-- A statement that reads rows has the same text under other names but for these names. -/
theorem Select.respelled_write {s : Select} (h : s.Over P) :
    Respelled σ s.write.sql (s.withNames σ).write.sql := by
  have houtputs := respelled_joined fun entry hentry =>
    Output.respelled_writeLabelled (σ := σ) (h.outputs entry hentry) entry.1
  have hselect := houtputs.lead "SELECT " (isStart_ofList (by decide))
  have hrows := hselect.clause (clause_base s.table h.conditions)
  have hordered := (hrows.clause (clause_groups s.groups)).clause (clause_order s.order)
  have hlimit := hordered.clause
    (clause_value " LIMIT " (0 ≤ s.limit) (.int s.limit) (isMiddle_ofList (by decide)))
  have hwhole := hlimit.clause
    (clause_value " OFFSET " (0 < s.offset) (.int s.offset) (isMiddle_ofList (by decide)))
  have hnames : (s.withNames σ).outputs.map (fun (label, o) => o.writeLabelled label) =
      s.outputs.map fun entry => (entry.2.withNames σ).writeLabelled (σ entry.1) := List.map_map
  rw [Select.write, Select.write, hnames]
  simp only [Fragment.sql_append, Fragment.sql_ofText]
  exact hwhole

/-- A statement that counts has the same text under other names but for these names. -/
theorem Count.respelled_write {s : Count} (h : s.Over P) :
    Respelled σ s.write.sql (s.withNames σ).write.sql := by
  cases h with
  | one =>
      rw [withNames, write, Fragment.sql_ofText]
      exact respelled_ofList (by decide)
  | rows table conditions _ hconditions =>
      have hall : Respelled σ "SELECT count(*)" "SELECT count(*)" :=
        respelled_ofList (by decide)
      simpa [write, withNames] using hall.clause (clause_base table hconditions)
  | groups table conditions keys _ hconditions _ =>
      have hall : Respelled σ "SELECT count(*) FROM (SELECT 1" "SELECT count(*) FROM (SELECT 1" :=
        respelled_ofList (by decide)
      have hgroups := (hall.clause (clause_base table hconditions)).clause (clause_groups keys)
      have hwhole := hgroups.tail ") AS grouped" (isEnd_ofList (by decide))
      simpa [write, withNames, String.append_assoc] using hwhole

/-! ## Statements that write -/

/-- No name stands in a value for a column. -/
theorem Written.respelled_write (w : Written) : Respelled σ w.write.sql w.write.sql := by
  cases w with
  | plain v => simpa [write] using respelled_placeholder
  | json v => simpa [write] using respelled_placeholder
  | geometry s =>
      have hgeometry : (Test.geometrySql s).sql = "ST_GeomFromGeoJSON(%s)" := rfl
      rw [write, hgeometry]
      exact respelled_ofList (by decide)

/-- What must hold of the rows, and the key that is returned. -/
theorem clause_where {conditions : List Predicate} (h : ∀ p ∈ conditions, p.Over P)
    (key : String) :
    Clause σ (Change.writeWhere conditions key).sql
      (Change.writeWhere (conditions.map (Predicate.exchanged σ id)) (σ key)).sql := by
  have hrows := (exchange_respelled (σ := σ).writeConditions h).between " RETURNING "
    (respelled_column ⟨baseAlias, key⟩) (isMiddle_ofList (by decide))
  have hclause := Clause.given " WHERE " hrows (isMiddle_ofList (by decide))
  simpa [Change.writeWhere, Column.exchanged] using hclause

/-- The columns of a row that is added, and its values. -/
theorem respelled_row (values : List (String × Written)) :
    Respelled σ
      (String.intercalate ", " (values.map fun entry => identifier entry.1) ++ (") VALUES (" ++
        (Fragment.joined ", " (values.map fun entry => entry.2.write)).sql))
      (String.intercalate ", " (values.map fun entry => identifier (σ entry.1)) ++ (") VALUES (" ++
        (Fragment.joined ", " (values.map fun entry => entry.2.write)).sql)) := by
  have hcolumns := respelled_list fun (entry : String × Written) (_ : entry ∈ values) =>
    respelled_identifier (σ := σ) entry.1
  exact hcolumns.between ") VALUES (" (respelled_joined fun entry _ => entry.2.respelled_write)
    (isMiddle_ofList (by decide))

/-- The values of rows that are changed, each behind its column. -/
theorem respelled_assignments (values : List (String × Written)) :
    Respelled σ
      (Fragment.joined ", " (values.map fun entry =>
        Fragment.ofText (identifier entry.1 ++ " = ") ++ entry.2.write)).sql
      (Fragment.joined ", " (values.map fun entry =>
        Fragment.ofText (identifier (σ entry.1) ++ " = ") ++ entry.2.write)).sql := by
  refine respelled_joined fun entry _ => ?_
  have hassignment := (respelled_identifier (σ := σ) entry.1).between " = "
    entry.2.respelled_write (isMiddle_ofList (by decide))
  simpa [String.append_assoc] using hassignment

/-- A statement that writes has the same text under other names but for these names. -/
theorem Change.respelled_write {s : Change} (h : s.Over P) :
    Respelled σ s.write.sql (s.withNames σ).write.sql := by
  cases h with
  | @insert table values key =>
      have hreturned := (respelled_row values).between ") RETURNING "
        (respelled_identifier (σ := σ) key) (isMiddle_ofList (by decide))
      have hrow := (respelled_identifier table).between " (" hreturned
        (isMiddle_ofList (by decide))
      have hwhole := hrow.lead "INSERT INTO " (isStart_ofList (by decide))
      simpa [write, withNames, Function.comp_def, String.append_assoc] using hwhole
  | @update table values conditions key _ _ hconditions _ =>
      have hset := (respelled_tableSql table baseAlias).between " SET "
        (respelled_assignments (σ := σ) values) (isMiddle_ofList (by decide))
      have hwhole := (hset.lead "UPDATE " (isStart_ofList (by decide))).clause
        (clause_where hconditions key)
      simpa [write, withNames, Function.comp_def, String.append_assoc] using hwhole
  | @mark table conditions key _ _ hconditions _ =>
      have hset := (respelled_tableSql table baseAlias).between " SET "
        ((respelled_mark (σ := σ)).tail " = now()" (isEnd_ofList (by decide)))
        (isMiddle_ofList (by decide))
      have hwhole := (hset.lead "UPDATE " (isStart_ofList (by decide))).clause
        (clause_where hconditions key)
      simpa [write, withNames, String.append_assoc] using hwhole
  | @delete table conditions key _ hconditions _ =>
      have hrows := (respelled_tableSql (σ := σ) table baseAlias).lead "DELETE FROM "
        (isStart_ofList (by decide))
      simpa [write, withNames, String.append_assoc] using
        hrows.clause (clause_where hconditions key)
  | @link table sourceColumn targetColumn source targets =>
      have hvalues : Respelled σ "%s, unnest(%s) ON CONFLICT DO NOTHING"
          "%s, unnest(%s) ON CONFLICT DO NOTHING" := respelled_ofList (by decide)
      have htarget := (respelled_identifier targetColumn).between ") SELECT " hvalues
        (isMiddle_ofList (by decide))
      have hcolumns := (respelled_identifier sourceColumn).between ", " htarget
        (isMiddle_ofList (by decide))
      have hrow := (respelled_identifier table).between " (" hcolumns (isMiddle_ofList (by decide))
      have hwhole := hrow.lead "INSERT INTO " (isStart_ofList (by decide))
      -- the values and what stands between them are one text
      have hjoined : Fragment.placeholder ++ (", unnest(" ++ (Fragment.placeholder ++
          ") ON CONFLICT DO NOTHING")) = "%s, unnest(%s) ON CONFLICT DO NOTHING" := rfl
      simpa [write, withNames, hjoined, String.append_assoc] using hwhole

end Sql

variable {k : Catalog} {s : Statement}

/-- **Under other names the text of a statement is the same but for these names.** -/
theorem Statement.Rendered.respelled (h : s.Rendered k) (σ : String → String) :
    Respelled σ s.write.sql (s.withNames σ).write.sql := by
  cases h with
  | @select p s h => exact Select.respelled_write (Plan.over_select k.over_true p.over_true h)
  | @count p s h => exact Count.respelled_write (Plan.over_count k.over_true p.over_true h)
  | insert h => exact Change.respelled_write (over_insertRow k.over_true (fun _ _ => trivial) h)
  | update h => exact Change.respelled_write (over_updateRows k.over_true (fun _ _ => trivial) h)
  | delete h => exact Change.respelled_write (over_deleteRows k.over_true h)
  | @link r _ _ _ h => exact Change.respelled_write (over_linkRows r.over_true h)

/-- **No text gets out of its quotes.**

* What is read as a quoted name is one name in quotes with its quotes doubled, wherever no quote
  follows it, and what is read is this name. It is the same with texts in single quotes.
* So names that are not the same are not the same in quotes either.
* Put any statement about the rows of a collection under other names of tables, columns, labels and
  members, whatever they are, perhaps one and the same for all. Outside of quotes its text stays as
  it is, character by character, and where a name was read, the one that replaces it is read. -/
theorem names_stay_in_quotes :
    (∀ text name rest, readIdentifier? text = some (name, rest) ↔
      text = identifier name ++ rest ∧ rest.toList.head? ≠ some '"') ∧
    (∀ text value rest, readLiteral? text = some (value, rest) ↔
      text = literal value ++ rest ∧ rest.toList.head? ≠ some '\'') ∧
    Function.Injective identifier ∧ Function.Injective literal ∧
    ∀ (k : Catalog) (s : Statement) (σ : String → String), s.Rendered k →
      ∃ ps qs, outline? s.write.sql = some ps ∧ outline? (s.withNames σ).write.sql = some qs ∧
        List.Forall₂ (Stretch.Renames σ) ps qs :=
  ⟨fun _ _ _ => readIdentifier?_eq_some_iff, fun _ _ _ => readLiteral?_eq_some_iff,
    identifier_injective, literal_injective, fun _ _ σ h => h.respelled σ⟩

/-- A number of posts that is called by what looks like another table is one name in quotes. -/
theorem names_stay_in_quotes_counted : ∃ p s,
    (Sample.countedBy "n\" FROM \"users" []).plan Sample.reader Grant.admin Sample.resolver =
      .ok p ∧
    p.select Sample.reader.catalog = .ok s ∧
    (Statement.select s).Rendered Sample.reader.catalog ∧
    readIdentifier? "\"n\"\" FROM \"\"users\" FROM" = some ("n\" FROM \"users", " FROM") ∧
    ∃ ps qs, outline? (Statement.select s).write.sql = some ps ∧
      outline? ((Statement.select s).withNames fun _ => "n").write.sql = some qs ∧
      List.Forall₂ (Stretch.Renames fun _ => "n") ps qs := by
  obtain ⟨p, s, hp, hs⟩ : ∃ p s,
      (Sample.countedBy "n\" FROM \"users" []).plan Sample.reader Grant.admin Sample.resolver =
        .ok p ∧ p.select Sample.reader.catalog = .ok s := ⟨_, _, rfl, rfl⟩
  obtain ⟨hread, -, -, -, hrespelled⟩ := names_stay_in_quotes
  refine ⟨p, s, hp, hs, .select hs, (hread _ _ _).2 ⟨by decide, by decide⟩, ?_⟩
  exact hrespelled _ _ _ (.select hs)

end Warden
