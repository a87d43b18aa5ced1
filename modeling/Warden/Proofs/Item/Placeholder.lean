import Warden.Proofs.Item.Statements
import Warden.Proofs.Query.Placeholder
import Warden.Proofs.Sample

/-! # Values line up with their placeholders

No name that a collection declares has a per cent sign. Then nothing that is written around the
values of a statement has one, and the values that were collected line up with the placeholders of
its text: in the statements of every plan whose labels are free of it (**`Catalog.LinesUp`**), and
in everything that is executed for items, since a payload can only name what is declared
(**`Context.LinesUp`**, `values_line_up`). A statement that writes a record gives each column the
record's own value for it (**`Sql.Change.Carries`**). -/

namespace Warden

open Sql

variable {P : String → Prop} {k : Catalog} {c : Collection}

/-! ## Names in payloads -/

/-- The property holds of the names in what is written behind a relation. -/
structure RelatedWrite.Over (P : String → Prop) (w : RelatedWrite) : Prop where
  /-- It holds of the names of the relation. -/
  relation : w.relation.Over P
  /-- It holds of the columns of the items to be created. -/
  rows : ∀ row ∈ w.rows, ∀ name ∈ Named.names row, P name

/-- The property holds of the names in a payload. -/
structure Payload.Over (P : String → Prop) (p : Payload) : Prop where
  /-- It holds of the columns. -/
  values : ∀ name ∈ Named.names p.values, P name
  /-- It holds of what is written behind the relations. -/
  related : ∀ w ∈ p.related, w.Over P

namespace Payload

variable {p q : Payload} {a : Allowlist}

/-- A value under one more name. -/
theorem forall_names_insert {values : Record} (h : ∀ name ∈ Named.names values, P name)
    {column : String} (hcolumn : P column) (v : Value) :
    ∀ name ∈ Named.names (values.insert column v), P name := by
  intro name hname
  rcases Named.mem_names_insert hname with rfl | hname
  · exact hcolumn
  · exact h name hname

theorem over_checkNested (hc : c.Over P) {names : List String}
    (h : checkNested c a names = .ok ()) : ∀ name ∈ names, P name := by
  induction names with
  | nil => exact List.forall_mem_nil _
  | cons name names ih =>
      rw [checkNested] at h
      split at h
      · cases h
      · next hfield =>
          split at h
          · cases h
          · rw [Bool.not_eq_true, Bool.not_eq_false'] at hfield
            exact List.forall_mem_cons.2 ⟨hc.hasField hfield, ih h⟩

theorem over_addItems (hc : c.Over P) {items : List Value} {w w' : RelatedWrite} (hw : w.Over P)
    (h : addItems c a items w = .ok w') : w'.Over P := by
  induction items, w using addItems.induct with
  | case1 w =>
      cases h
      exact hw
  | case2 w entries rest ih =>
      rw [addItems] at h
      obtain ⟨_, hnested, h⟩ := Outcome.bind_eq_ok.1 h
      refine ih ⟨hw.relation, ?_⟩ h
      intro row hrow
      rcases List.mem_append.1 hrow with hrow | hrow
      · exact hw.rows row hrow
      · rw [List.mem_singleton.1 hrow]
        exact over_checkNested hc hnested
  | case3 w v rest hv ih =>
      rw [addItems] at h
      · exact ih ⟨hw.relation, hw.rows⟩ h
      · exact hv

theorem over_relatedWrite (hk : k.Over P) {r : Relation} (hr : r.Over P) {v : Value}
    {w : RelatedWrite} (h : relatedWrite k r a v = .ok w) : w.Over P := by
  rw [relatedWrite] at h
  cases htarget : k.find? r.target with
  | none =>
      rw [htarget] at h
      cases h
  | some target =>
      rw [htarget] at h
      obtain ⟨items, -, h⟩ := Outcome.bind_eq_ok.1 h
      exact over_addItems (hk.find? htarget) ⟨hr, List.forall_mem_nil _⟩ h

theorem over_addEntry (hk : k.Over P) (hc : c.Over P) (hp : p.Over P) {name : String} {v : Value}
    (h : addEntry k c a p name v = .ok q) : q.Over P := by
  rw [addEntry] at h
  split at h
  · next r hr =>
      have hrelation := hc.relation hr
      split at h
      · cases h
      · split at h
        · split at h
          · cases h
          · next key hkey =>
              cases h
              exact ⟨forall_names_insert hp.values (hrelation.foreignKey key hkey) v, hp.related⟩
        · obtain ⟨w, hw, h⟩ := Outcome.bind_eq_ok.1 h
          obtain rfl := Outcome.pure_eq_ok.1 h
          refine ⟨hp.values, fun w' hw' => ?_⟩
          rcases List.mem_append.1 hw' with hw' | hw'
          · exact hp.related w' hw'
          · rw [List.mem_singleton.1 hw']
            exact over_relatedWrite hk hrelation hw
  · split at h
    · cases h
    · next hfield =>
        split at h
        · cases h
        · cases h
          rw [Bool.not_eq_true, Bool.not_eq_false'] at hfield
          exact ⟨forall_names_insert hp.values (hc.hasField hfield) v, hp.related⟩

theorem over_setDefault (hc : c.Over P) (hp : p.Over P) {r : Resolver} {name : String} {v : Value}
    (h : setDefault c r p name v = .ok q) : q.Over P := by
  rw [setDefault] at h
  split at h
  · cases h
  · next hfield =>
      obtain ⟨w, -, h⟩ := Outcome.bind_eq_ok.1 h
      obtain rfl := Outcome.pure_eq_ok.1 h
      rw [Bool.not_eq_true, Bool.not_eq_false'] at hfield
      exact ⟨forall_names_insert hp.values (hc.hasField hfield) w, hp.related⟩

/-- **The names in a payload** are declared ones, whatever was sent. -/
theorem over_prepare (hk : k.Over P) (hc : c.Over P) {grant : Grant} {r : Resolver} {data : Value}
    (h : prepare k c grant r data = .ok p) : p.Over P := by
  cases data with
  | record entries =>
      obtain ⟨sent, hsent, h⟩ := Outcome.bind_eq_ok.1 h
      have hempty : Payload.Over P ⟨[], []⟩ := ⟨List.forall_mem_nil _, List.forall_mem_nil _⟩
      have hover :=
        Outcome.of_foldlM (fun p entry q hp hq => over_addEntry hk hc hp hq) hempty hsent
      exact Outcome.of_foldlM (fun p entry q hp hq => over_setDefault hc hp hq) hover h
  | _ => exact absurd h (Outcome.refuse_ne_ok _ _)

end Payload

/-! ## Statements of items -/

open Dialogue

/-- The property holds of the names in a statement for items. -/
inductive Statement.Over (P : String → Prop) : Statement → Prop where
  /-- It holds of the names in a statement that reads rows. -/
  | select (s : Select) (h : s.Over P) : Over P (.select s)
  /-- It holds of the names in a statement that counts. -/
  | count (s : Count) (h : s.Over P) : Over P (.count s)
  /-- It holds of the names in a statement that writes. -/
  | change (s : Change) (h : s.Over P) : Over P (.change s)

/-- The names in what is written behind a relation are declared ones. -/
theorem RelatedWrite.Over.of_issues {w : RelatedWrite} (hw : w.Over P) (hk : k.Over P)
    {s : Statement} (h : w.Issues k s) : s.Over P := by
  cases h with
  | add hrow _ hs => exact .change _ (over_insertRow hk (hw.rows _ hrow) hs)
  | addOwned key hrow hcolumn hs =>
      have hnames := Payload.forall_names_insert (hw.rows _ hrow)
        (hw.relation.foreignKey _ hcolumn) key
      exact .change _ (over_insertRow hk hnames hs)
  | adopt key hcolumn hs =>
      refine .change _ (over_updateRows hk ?_ hs)
      exact List.forall_mem_singleton.2 (hw.relation.foreignKey _ hcolumn)
  | link _ _ hs => exact .change _ (over_linkRows hw.relation hs)

/-- The names in what a row can get are declared ones. -/
theorem Payload.Stores.over {p : Payload} {values : Record} (h : p.Stores k values)
    (hp : p.Over P) : ∀ name ∈ Named.names values, P name := by
  obtain ⟨keys, -, rfl⟩ := h.keys
  intro name hname
  rcases Named.mem_names_putAll hname with hname | hname
  · exact hp.values name hname
  · obtain ⟨w, hw, hcolumn⟩ := List.mem_filterMap.1 (names_zip_subset hname)
    obtain ⟨row, -, hcolumn⟩ := Option.bind_eq_some_iff.1 hcolumn
    exact (hp.related w hw).relation.foreignKey name hcolumn

namespace Context

variable {x : Context} {collection key : String} {s : Statement}

/-- The names in the statements that create an item are declared ones. -/
theorem over_of_says_createItem (hk : x.catalog.Over P) {data : Value}
    (h : Says (.execute s) (x.createItem collection data)) : s.Over P := by
  obtain ⟨p, hp, h⟩ := issues_of_says_createItem h
  obtain ⟨grant, c, -, hc, hprepared, -⟩ := creation_eq_ok.1 hp
  have hover := Payload.over_prepare hk (hk.find hc) hprepared
  rcases h with ⟨values, change, hvalues, hchange, rfl⟩ | ⟨w, hw, h⟩
  · exact .change _ (over_insertRow hk (hvalues.over hover) hchange)
  · exact (hover.related w hw).of_issues hk h

/-- The names in the statements that change an item are declared ones. -/
theorem over_of_says_updateItem (hk : x.catalog.Over P) {data : Record}
    (h : Says (.execute s) (x.updateItem collection key data)) : s.Over P := by
  obtain ⟨r, hr, h⟩ := issues_of_says_updateItem h
  obtain ⟨-, -, hfind, -⟩ := security_of_change hr
  obtain ⟨grant, -, hprepared⟩ := prepare_of_change hr
  have hc := hk.find hfind
  have hover := Payload.over_prepare hk hc hprepared
  rcases h with ⟨stored, change, hstored, hchange, rfl⟩ | ⟨w, hw, h⟩
  · refine .change _ (over_updateRows hk ?_ hchange)
    rw [updatedValues]
    split
    · exact List.forall_mem_singleton.2 (hc.primaryKey hk.reserved)
    · exact hstored.over hover
  · exact (hover.related w hw).of_issues hk h

/-- The names in the statements that delete an item are declared ones. -/
theorem over_of_says_deleteItem (hk : x.catalog.Over P)
    (h : Says (.execute s) (x.deleteItem collection key)) : s.Over P := by
  obtain ⟨grant, c, security, change, -, -, -, hchange, rfl⟩ := deletes_of_says_deleteItem h
  exact .change _ (over_deleteRows hk hchange)

variable {fields : Option (List String)} {r : Request}

/-- The names in the statements of a plan are declared ones. -/
theorem over_of_reads {p : Plan} (hk : k.Over P) (hp : p.Over P) (h : p.Reads k s) : s.Over P := by
  rcases h with ⟨q, hq, rfl⟩ | ⟨q, hq, rfl⟩
  · exact .select q (Plan.over_select hk hp hq)
  · exact .count q (Plan.over_count hk hp hq)

/-- Reading items executes the statements of the plan of the request. -/
theorem reads_of_says_readItems (h : Says (.execute s) (x.readItems r)) :
    ∃ grant p, r.plan x.reader grant x.resolver = .ok p ∧ p.Reads x.catalog s := by
  rw [readItems] at h
  obtain ⟨grant, -, h⟩ := says_lift_bind.1 h
  obtain ⟨p, hp, h⟩ := says_lift_bind.1 h
  refine ⟨grant, p, hp, Plan.reads_of_says (says_of_transaction (says_bind_of_silent ?_ h))⟩
  intro (rows, total) h
  obtain ⟨visible, -, h⟩ := says_lift_bind.1 h
  exact not_says_done _ h

variable (hpart : ∀ name part, P name → P (GroupKey.label ⟨name, some part⟩))

include hpart

/-- The names in the statements that read items are declared ones and labels of the request. -/
theorem over_of_says_readItems (hk : x.catalog.Over P)
    (hlabels : ∀ label ∈ r.aggregate.names, P label)
    (h : Says (.execute s) (x.readItems r)) : s.Over P := by
  obtain ⟨grant, p, hp, hreads⟩ := reads_of_says_readItems h
  have hover := Request.over_plan hk hpart
    (fun label hlabel => hlabels label (Request.names_plan hp hlabel)) hp
  exact over_of_reads hk hover hreads

/-- The names in the statements that read an item are declared ones. -/
theorem over_of_says_readItem (hk : x.catalog.Over P)
    (h : Says (.execute s) (x.readItem collection key fields)) : s.Over P := by
  obtain ⟨grant, c, p, -, -, hp, hreads⟩ := reads_of_says_readItem h
  obtain ⟨q, hq, hp⟩ := Outcome.bind_eq_ok.1 hp
  obtain rfl := Outcome.pure_eq_ok.1 hp
  have hover := Request.over_plan hk hpart
    (fun label hlabel => nomatch Request.names_plan hq hlabel) hq
  have hfiltered (f : Filter) : Plan.Over P { q with filter := f } :=
    ⟨hover.selection, hover.sortColumns, hover.sortLabels, hover.search, hover.groups,
      hover.groupLabels, hover.aggregates, hover.labels⟩
  exact over_of_reads hk (hfiltered _) hreads

end Context

/-! ## Values and placeholders -/

/-- The value beside a statement stands for a value of a record. -/
inductive Sql.Parameter.For (v : Value) : Parameter → Prop where
  /-- It is the value. -/
  | plain : For v (.plain v)
  /-- It is the value, to be stored as JSON. -/
  | json : For v (.json v)
  /-- It is the text of the value, which is a geometry. -/
  | geometry {s : String} (h : geometryText v = .ok s) : For v (.plain (.text s))

/-- A text that gives columns the expressions beside them. -/
inductive Sql.Assigns (assigned : List (String × String)) : String → Prop where
  /-- The columns and the expressions stand in two lists of the same order. -/
  | lists (table key : String) :
      Assigns assigned ("INSERT INTO " ++ identifier table ++ " (" ++
        String.intercalate ", " (assigned.map fun a => identifier a.1) ++ ") VALUES (" ++
        String.intercalate ", " (assigned.map Prod.snd) ++ ") RETURNING " ++ identifier key)
  /-- Each expression stands behind its column. -/
  | pairs (table conditions key : String) :
      Assigns assigned ("UPDATE " ++ tableSql table baseAlias ++ " SET " ++
        String.intercalate ", " (assigned.map fun a => identifier a.1 ++ " = " ++ a.2) ++
        whereSql conditions key)

/-- The columns that a statement writes, each with its value. -/
def Sql.Change.values : Change → List (String × Written)
  | .insert _ values _ | .update _ values _ _ => values
  | _ => []

/-- What stands in a statement for the values of its columns. -/
def Sql.Change.assigned (s : Change) (shown : Parameter → String) : List (String × String) :=
  s.values.map fun column => (column.1, column.2.render.inPlace shown)

/-- The values of a statement that writes the columns of a record line up, and each column gets the
record's own value for it. -/
structure Sql.Change.Carries (s : Change) (values : Record) : Prop where
  /-- They line up. -/
  linesUp : s.render.LinesUp
  /-- The columns are those of the record, each with the value of the record for it. -/
  columns : List.Forall₂ (fun entry column => column.1 = entry.1 ∧ column.2.parameter.For entry.2)
    values s.values
  /-- The first values beside the statement are those of the columns, in their order. -/
  ordered : s.values.map (fun column => column.2.parameter) <+: s.render.sent.parameters
  /-- The text gives each column its own value. -/
  assigns : ∀ shown, Assigns (s.assigned shown) (s.render.inPlace shown)

/-- The values of a statement that links rows line up, and each column gets its own keys. -/
structure Sql.Change.Links (s : Change) (r : Relation) (source : Value) (targets : List Value) :
    Prop where
  /-- They line up. -/
  linesUp : s.render.LinesUp
  /-- The column of the source gets its key, and that of the targets theirs. -/
  assigns : ∃ table sourceColumn targetColumn, joinKey r r.sourceKey = .ok sourceColumn ∧
    joinKey r r.targetKey = .ok targetColumn ∧ ∀ shown, s.render.inPlace shown =
      "INSERT INTO " ++ identifier table ++ " (" ++ identifier sourceColumn ++ ", " ++
        identifier targetColumn ++ ") SELECT " ++ shown (.plain source) ++ ", unnest(" ++
        shown (.plain (.list targets)) ++ ") ON CONFLICT DO NOTHING"

/-! ### What columns get -/

theorem Sql.Parameter.for_of_written {name : String} {v : Value} {w : Written}
    (h : written c name v = .ok w) : w.parameter.For v := by
  unfold written at h
  split at h
  · cases h
    exact .plain
  · cases h
    exact .json
  · obtain ⟨text, htext, h⟩ := Outcome.bind_eq_ok.1 h
    obtain rfl := Outcome.pure_eq_ok.1 h
    exact .geometry htext
  · cases h
    exact .plain

theorem Sql.forall₂_writtenAll {values : Record} {ws : List (String × Written)}
    (h : writtenAll c values = .ok ws) :
    List.Forall₂ (fun entry column => column.1 = entry.1 ∧ column.2.parameter.For entry.2)
      values ws := by
  induction values generalizing ws with
  | nil =>
      cases h
      exact .nil
  | cons entry values ih =>
      obtain ⟨w, hw, h⟩ := Outcome.bind_eq_ok.1 h
      obtain ⟨rest, hrest, h⟩ := Outcome.bind_eq_ok.1 h
      obtain rfl := Outcome.pure_eq_ok.1 h
      exact .cons ⟨rfl, Parameter.for_of_written hw⟩ (ih hrest)

namespace Sql.Change

variable {shown : Parameter → String}

/-- The values of the columns come first, in the order of the columns. -/
theorem prefix_parameters (s : Change) :
    s.values.map (fun column => column.2.parameter) <+: s.render.sent.parameters := by
  have hparameters (f : String × Written → Fragment) (values : List (String × Written))
      (hf : ∀ column, (f column).parameters = [column.2.parameter]) :
      (Fragment.joined ", " (values.map f)).parameters =
        values.map fun column => column.2.parameter := by
    rw [Fragment.parameters_joined, List.flatMap_map, List.map_eq_flatMap]
    simp only [hf]
  rw [s.writes.sent_eq]
  cases s with
  | insert table values key =>
      have hvalues := hparameters _ values fun column => column.2.parameters_write
      simp [Change.values, write, hvalues]
  | update table values conditions key =>
      have hvalues := hparameters (fun column =>
        Fragment.ofText (identifier column.1 ++ " = ") ++ column.2.write) values fun column => by
          simp [Written.parameters_write]
      simp [Change.values, write, hvalues]
  | mark _ _ _ | delete _ _ _ | link _ _ _ _ _ => exact List.nil_prefix

theorem assigned_eq (s : Change) : s.assigned shown =
    s.values.map fun column => (column.1, column.2.write.inPlace shown) := by
  refine List.map_congr_left fun column _ => ?_
  rw [column.2.writes.inPlace_eq]

/-- The columns of a row that is added and the expressions for them are lists of one order. -/
theorem assigns_insert (table : String) (values : List (String × Written)) (key : String) :
    Assigns ((insert table values key).assigned shown)
      ((insert table values key).render.inPlace shown) := by
  rw [(writes _).inPlace_eq, assigned_eq]
  convert @Assigns.lists _ table key using 1
  simp [write, Change.values, Fragment.inPlace_joined, Function.comp_def, String.append_assoc]

/-- In a change of rows the expression for each column stands behind it. -/
theorem assigns_update (table : String) (values : List (String × Written))
    (conditions : List Predicate) (key : String) :
    Assigns ((update table values conditions key).assigned shown)
      ((update table values conditions key).render.inPlace shown) := by
  rw [(writes _).inPlace_eq, assigned_eq]
  convert @Assigns.pairs _ table
    ((Predicate.writeConditions conditions).inPlace shown) key using 1
  simp [write, Change.values, Fragment.inPlace_joined, inPlace_writeWhere, Function.comp_def,
    String.append_assoc]

/-- A statement that links rows names the columns and their keys in one order. -/
theorem links_of_linkRows {r : Relation} {source : Value} {targets : List Value} {s : Change}
    (h : linkRows r source targets = .ok s) (hs : s.render.LinesUp) :
    s.Links r source targets := by
  obtain ⟨sourceColumn, hsource, h⟩ := Outcome.bind_eq_ok.1 h
  obtain ⟨targetColumn, htarget, h⟩ := Outcome.bind_eq_ok.1 h
  obtain ⟨table, -, h⟩ := Outcome.bind_eq_ok.1 h
  obtain rfl := Outcome.pure_eq_ok.1 h
  exact ⟨hs, table, sourceColumn, targetColumn, hsource, htarget, fun _ => rfl⟩

end Sql.Change

/-! ### Results -/

/-- The values of a statement for items line up with its placeholders. -/
inductive Statement.LinesUp : Statement → Prop where
  /-- So do those of a statement that reads rows. -/
  | select (s : Select) (h : s.render.LinesUp) : LinesUp (.select s)
  /-- So do those of a statement that counts. -/
  | count (s : Count) (h : s.render.LinesUp) : LinesUp (.count s)
  /-- So do those of a statement that writes. -/
  | change (s : Change) (h : s.render.LinesUp) : LinesUp (.change s)

/-- The values of a statement line up with its placeholders if its names have no per cent sign. -/
theorem Statement.linesUp_of_over {s : Statement} (h : s.Over Bare) : s.LinesUp := by
  cases h with
  | select s h => exact .select s (s.writes.linesUp (bare_select h))
  | count s h => exact .count s (s.writes.linesUp (bare_count h))
  | change s h => exact .change s (s.writes.linesUp (Change.bare_write h))

/-- The label of a date part has a per cent sign only if the field has one. -/
theorem bare_label (name : String) (part : DatePart) (h : Bare name) :
    Bare (GroupKey.label ⟨name, some part⟩) := by
  cases part <;> simpa +decide [GroupKey.label, DatePart.name] using h

/-- The values of every statement for the collections line up with its placeholders. -/
structure Catalog.LinesUp (k : Catalog) : Prop where
  /-- So it is when the rows of a plan are read or counted. -/
  reading : ∀ p : Plan, p.Over Bare → (∀ s, p.select k = .ok s → s.render.LinesUp) ∧
    ∀ s, p.count k = .ok s → s.render.LinesUp
  /-- A plan that is made of a request has no per cent sign in its names if there is none in the
  labels of its aggregates. -/
  planned : ∀ (r : Request) (maxDepth : Int) (grant : Grant) (resolver : Resolver) (p : Plan),
    r.plan ⟨k, maxDepth⟩ grant resolver = .ok p → (∀ label ∈ p.aggregate.names, Bare label) →
      p.Over Bare
  /-- So it is when a row is added. -/
  inserting : ∀ (collection : String) (values : Record) (s : Change),
    (∀ name ∈ Named.names values, Bare name) → insertRow k collection values = .ok s →
      s.Carries values
  /-- So it is when rows are changed. -/
  updating : ∀ (collection : String) (f : Filter) (values : Record) (relConditions : Named Filter)
    (s : Change), (∀ name ∈ Named.names values, Bare name) →
      updateRows k collection f values relConditions = .ok s → s.Carries values
  /-- So it is when rows are deleted or marked. -/
  deleting : ∀ (collection : String) (f : Filter) (relConditions : Named Filter) (s : Change),
    deleteRows k collection f relConditions = .ok s → s.render.LinesUp
  /-- So it is when rows are linked. -/
  linking : ∀ c ∈ k.collections, ∀ r ∈ c.relations, ∀ (source : Value) (targets : List Value)
    (s : Change), linkRows r source targets = .ok s → s.Links r source targets

/-- The values of every statement that is executed for items line up with its placeholders. -/
structure Context.LinesUp (x : Context) : Prop where
  /-- So it is when the items of a request are read. -/
  readItems : ∀ (r : Request) (s : Statement), (∀ label ∈ r.aggregate.names, Bare label) →
    Says (.execute s) (x.readItems r) → s.LinesUp
  /-- So it is when an item is read. -/
  readItem : ∀ (collection key : String) (fields : Option (List String)) (s : Statement),
    Says (.execute s) (x.readItem collection key fields) → s.LinesUp
  /-- So it is when an item is created. -/
  createItem : ∀ (collection : String) (data : Value) (s : Statement),
    Says (.execute s) (x.createItem collection data) → s.LinesUp
  /-- So it is when an item is changed. -/
  updateItem : ∀ (collection key : String) (data : Record) (s : Statement),
    Says (.execute s) (x.updateItem collection key data) → s.LinesUp
  /-- So it is when an item is deleted. -/
  deleteItem : ∀ (collection key : String) (s : Statement),
    Says (.execute s) (x.deleteItem collection key) → s.LinesUp

theorem Catalog.linesUp_of_over (hk : k.Over Bare) : k.LinesUp := by
  have hchange {s : Change} (h : s.Over Bare) : s.render.LinesUp :=
    s.writes.linesUp (Change.bare_write h)
  constructor
  case reading =>
    intro p hp
    exact ⟨fun s hs => s.writes.linesUp (bare_select (Plan.over_select hk hp hs)),
      fun s hs => s.writes.linesUp (bare_count (Plan.over_count hk hp hs))⟩
  case planned =>
    intro r maxDepth grant resolver p hp hlabels
    exact Request.over_plan hk bare_label hlabels hp
  case inserting =>
    intro collection values s hvalues hs
    have hlinesUp := hchange (over_insertRow hk hvalues hs)
    obtain ⟨c, -, hs⟩ := Outcome.bind_eq_ok.1 hs
    obtain ⟨ws, hws, hs⟩ := Outcome.bind_eq_ok.1 hs
    obtain rfl := Outcome.pure_eq_ok.1 hs
    exact ⟨hlinesUp, forall₂_writtenAll hws, Change.prefix_parameters _,
      fun _ => Change.assigns_insert _ _ _⟩
  case updating =>
    intro collection f values relConditions s hvalues hs
    have hlinesUp := hchange (over_updateRows hk hvalues hs)
    obtain ⟨c, -, hs⟩ := Outcome.bind_eq_ok.1 hs
    obtain ⟨ws, hws, hs⟩ := Outcome.bind_eq_ok.1 hs
    obtain ⟨conditions, -, hs⟩ := Outcome.bind_eq_ok.1 hs
    obtain rfl := Outcome.pure_eq_ok.1 hs
    exact ⟨hlinesUp, forall₂_writtenAll hws, Change.prefix_parameters _,
      fun _ => Change.assigns_update _ _ _ _⟩
  case deleting => exact fun collection f relConditions s hs => hchange (over_deleteRows hk hs)
  case linking =>
    intro c hc r hr source targets s hs
    exact Change.links_of_linkRows hs
      (hchange (over_linkRows ((hk.collections c hc).relations r hr) hs))

theorem Context.linesUp_of_over {x : Context} (hk : x.catalog.Over Bare) : x.LinesUp where
  readItems _ _ hlabels h :=
    Statement.linesUp_of_over (over_of_says_readItems bare_label hk hlabels h)
  readItem _ _ _ _ h := Statement.linesUp_of_over (over_of_says_readItem bare_label hk h)
  createItem _ _ _ h := Statement.linesUp_of_over (over_of_says_createItem hk h)
  updateItem _ _ _ _ h := Statement.linesUp_of_over (over_of_says_updateItem hk h)
  deleteItem _ _ _ h := Statement.linesUp_of_over (over_of_says_deleteItem hk h)

/-- **Values line up with their placeholders** in every statement for collections whose names have
no per cent sign: those of every plan, whatever it asks for, if its labels have none, and those that
write. The statements that are executed for items are among them, whatever was sent. -/
theorem values_line_up (hk : k.Over Bare) :
    k.LinesUp ∧ ∀ x : Context, x.catalog = k → x.LinesUp :=
  ⟨Catalog.linesUp_of_over hk, fun _ hx => Context.linesUp_of_over (hx ▸ hk)⟩

/-- No name in the small service has a per cent sign. -/
theorem Sample.over_bare : Sample.reader.catalog.Over Bare := by
  have hauthor : Relation.Over Bare author := by
    constructor
    case name => decide
    case foreignKey =>
      rintro _ ⟨⟩
      decide
    all_goals rintro _ ⟨⟩
  have hposts : Collection.Over Bare posts :=
    ⟨by decide, by decide, by decide, List.forall_mem_singleton.2 hauthor⟩
  have husers : Collection.Over Bare users :=
    ⟨by decide, by decide, by decide, List.forall_mem_nil _⟩
  exact ⟨List.forall_mem_cons.2 ⟨hposts, List.forall_mem_singleton.2 husers⟩, by decide, by decide⟩

/-- In the small service values line up. -/
theorem values_line_up_posts : Sample.reader.catalog.Over Bare ∧ Sample.reader.catalog.LinesUp ∧
    Sample.context.LinesUp :=
  ⟨Sample.over_bare, (values_line_up Sample.over_bare).1,
    (values_line_up Sample.over_bare).2 Sample.context rfl⟩

end Warden
