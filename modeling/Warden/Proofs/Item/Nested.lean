import Warden.Proofs.Item.Allowance
import Warden.Proofs.Item.Storing
import Warden.Proofs.Item.Writing

/-! # Nested data is written completely and once

What is sent behind the relations of a new item is prepared relation by relation
(`Payload.Within`), and the statements of a finished creation follow the prepared payload
(`Context.Creates`). Put together, they say what is written for each of the four kinds of relations:

* **`RelatedWrite.WritesInFront`**: an object for a relation to one row is added before the item's
  row, and its key stands in that relation's column of the row. No later key takes its place if
  these columns are different (`nodup_keyColumns`).
* **`RelatedWrite.WritesBehind`**: rows for a relation to many are added after it, and what was sent
  as keys is linked by one statement.

With a database that answers, all of this happens if every statement can be made
(**`nested_data_written_once`**). A statement that links rows cannot be made for a target that
declares no key, although all others are made with the default one; then the whole creation is
turned down after the item's row has been added (`linked_comments_turned_down`). -/

namespace Warden

open Sql

/-! ## What is written behind a relation -/

namespace RelatedWrite

variable {k : Catalog} {w : RelatedWrite} {target : Collection} {key : Value}

/-- One statement gives the key of the item to exactly the rows whose own keys were sent. -/
def Relinks (k : Catalog) (w : RelatedWrite) (column : String) (key : Value) (e : Exchange) :
    Prop :=
  ∃ target written, k.find? w.relation.target = some target ∧
    Sql.written target column key = .ok written ∧
    e.statement = .change (relinking target w.keys column written)

/-- One statement links the item with exactly these keys, in order. -/
def Joins (w : RelatedWrite) (key : Value) (keys : List Value) (e : Exchange) : Prop :=
  ∃ table source target, w.relation.through = some table ∧ w.relation.sourceKey = some source ∧
    w.relation.targetKey = some target ∧ e.statement = .change (.link table source target key keys)

/-- The statements write all that was sent behind a relation to many rows, and nothing else.

Where the rows hold the key of the item, each row is added with that key, and one statement gives it
to the rows that are linked, if there are any. Where a joining table holds the keys, each row is
added as it was sent, and one statement links the keys that were sent, then those that came back, if
there are any. -/
def WritesBehind (k : Catalog) (key : Value) (w : RelatedWrite) (t : Transcript) : Prop :=
  match w.relation.type with
  | .oneToMany => ∃ column added linked, w.relation.foreignKey = some column ∧
      t = added ++ linked ∧
      List.Forall₂ (fun row e => k.Adds w.relation.target (row.insert column key) e) w.rows added ∧
      if w.keys = [] then linked = [] else ∃ e, linked = [e] ∧ w.Relinks k column key e
  | .manyToMany => ∃ added linked, t = added ++ linked ∧
      List.Forall₂ (fun row e => k.Adds w.relation.target row e) w.rows added ∧
      if w.keys = [] ∧ w.rows = [] then linked = []
      else ∃ e, linked = [e] ∧ w.Joins key (w.keys ++ added.keys) e
  | .manyToOne | .oneToOne => t = []

theorem joinKey_eq_ok {r : Relation} {key : Option String} {name : String}
    (h : joinKey r key = .ok name) : key = some name := by
  cases key with
  | none => exact absurd h (Outcome.refuse_ne_ok _ _)
  | some name' =>
      simp only [joinKey] at h
      split at h
      · exact absurd h (Outcome.refuse_ne_ok _ _)
      · exact congrArg some (Except.ok.inj h)

theorem joins_of_linkRows {keys : List Value} {s : Change} {rows : List Row}
    (h : linkRows w.relation key keys = .ok s) : w.Joins key keys ⟨.change s, rows⟩ := by
  simp only [linkRows, Outcome.bind_eq_ok, Outcome.pure_eq_ok] at h
  obtain ⟨source, hsource, target, htarget, table, htable, rfl⟩ := h
  exact ⟨table, source, target, joinKey_eq_ok htable, joinKey_eq_ok hsource,
    joinKey_eq_ok htarget, rfl⟩

/-- What is added and linked behind a relation, statement by statement. -/
theorem writesBehind_of_addsBehind {t : Transcript}
    (htarget : k.find? w.relation.target = some target)
    (hkey : w.targetKey = target.primaryKey) (hw : w.Storable k target)
    (h : w.AddsBehind k key t) : w.WritesBehind k key t := by
  rw [AddsBehind] at h
  rw [WritesBehind]
  cases htype : w.relation.type with
  | oneToMany =>
      rw [htype] at h
      obtain ⟨column, added, linked, hcolumn, rfl, hadded, hadopts⟩ := h
      refine ⟨column, added, linked, hcolumn, rfl, hadded, ?_⟩
      rw [Adopts] at hadopts
      by_cases hkeys : w.keys = []
      · rw [if_pos hkeys]
        rwa [if_pos (List.isEmpty_iff.2 hkeys)] at hadopts
      · rw [if_neg hkeys]
        rw [if_neg (mt List.isEmpty_iff.1 hkeys)] at hadopts
        obtain ⟨s, rows, hs, rfl⟩ := hadopts
        obtain ⟨hfield, hdot⟩ := hw.linked htype hkeys
        obtain ⟨written, hwritten⟩ := Collection.exists_written_iff.2 fun hgeometry =>
          absurd hgeometry (hw.column htype column hcolumn)
        rw [hkey, updateRows_listed htarget hkeys hfield hdot hwritten] at hs
        cases hs
        exact ⟨_, rfl, target, written, htarget, hwritten, rfl⟩
  | manyToMany =>
      rw [htype] at h
      obtain ⟨added, linked, rfl, hadded, hlinks⟩ := h
      refine ⟨added, linked, rfl, hadded, ?_⟩
      have hempty : (w.keys ++ added.keys).isEmpty = true ↔ w.keys = [] ∧ w.rows = [] := by
        rw [List.isEmpty_iff, List.append_eq_nil_iff, ← List.length_eq_zero_iff (l := w.rows),
          hadded.length_eq, List.length_eq_zero_iff, Transcript.keys, List.map_eq_nil_iff]
      rw [Links] at hlinks
      split
      case isTrue hnone => rwa [if_pos (hempty.2 hnone)] at hlinks
      case isFalse hsome =>
        rw [if_neg (mt hempty.1 hsome)] at hlinks
        obtain ⟨s, rows, hs, rfl⟩ := hlinks
        exact ⟨_, rfl, joins_of_linkRows hs⟩
  | manyToOne | oneToOne =>
      rw [htype] at h
      exact h

end RelatedWrite

/-! ## What is prepared behind relations -/

/-- The relation is declared and has its keys, its target is declared, and for a relation to one row
there is one row. -/
structure RelatedWrite.Prepared (k : Catalog) (c : Collection) (w : RelatedWrite) : Prop where
  /-- The relation is the collection's own of its name. -/
  relation : c.relation? w.relation.name = some w.relation
  /-- The relation has the keys that joins need. -/
  keyed : w.relation.Keyed
  /-- The linked rows are found by the key of the target. -/
  target : ∃ target, k.find? w.relation.target = some target ∧ w.targetKey = target.primaryKey
  /-- One object was sent for a relation to one row. -/
  one : w.relation.isToOne = true → ∃ row, w.rows = [row]

/-- Relations to one row keep their keys in different columns. -/
def Collection.DistinctForeignKeys (c : Collection) : Prop :=
  ∀ r s : Relation, c.relation? r.name = some r → c.relation? s.name = some s →
    r.isToOne = true → s.isToOne = true → r.foreignKey = s.foreignKey → r = s

section Sent

variable {c : Collection} {entries : Record}

/-- The relations behind which items are sent have the names of the entries. -/
theorem Collection.sublist_names_sentItems :
    ((c.sentItems entries).map fun sent => sent.1.name).Sublist (Named.names entries) := by
  induction entries with
  | nil => exact List.Sublist.slnil
  | cons entry entries ih =>
      rw [sentItems, List.filterMap_cons]
      cases hsent : c.itemsSent? entry with
      | none => exact ih.cons _
      | some sent =>
          obtain ⟨hr, -⟩ := cases_of_itemsSent? hsent
          rw [List.map_cons, name_of_relation? hr]
          exact ih.cons_cons _

end Sent

namespace Payload

open Dialogue

variable {k : Catalog} {c : Collection} {grant : Grant} {entries : Record} {p : Payload}
  {related : List RelatedWrite}

/-- The relations behind which something is written are those behind which something was sent. -/
theorem map_relation_of_within (h : p.Within k c grant entries) :
    p.related.map (·.relation) = (c.sentItems entries).map (·.1) := by
  have hall {sent : List (Relation × List Value)} {related : List RelatedWrite}
      (h : List.Forall₂ (RelatedWrite.Sends k grant.allowlist) sent related) :
      related.map (·.relation) = sent.map (·.1) := by
    induction h with
    | nil => rfl
    | cons hsends _ ih => rw [List.map_cons, List.map_cons, hsends.relation, ih]
  exact hall h.related

theorem prepared_of_within (hk : k.Keyed) (hc : c ∈ k.collections)
    (h : p.Within k c grant entries) : ∀ w ∈ p.related, w.Prepared k c := by
  intro w hw
  obtain ⟨entry, -, sent, hentry, hsends⟩ := h.exists_sends hw
  obtain ⟨hr, hitems⟩ := Collection.cases_of_itemsSent? hentry
  obtain ⟨target, htarget, hkey, -⟩ := hsends.target
  rw [← hsends.relation] at hr hitems
  refine ⟨?_, hk c hc _ (List.mem_of_find?_eq_some hr), ⟨target, htarget, hkey⟩, fun hone => ?_⟩
  · rwa [Collection.name_of_relation? hr]
  · rcases hitems with ⟨-, row, -, hitems⟩ | ⟨hmany, -⟩
    · refine ⟨row, ?_⟩
      rw [hsends.rows, hitems]
      rfl
    · exact nomatch hone.symm.trans hmany

/-- No two objects put their keys into the same column. -/
theorem nodup_keyColumns (hc : c.DistinctForeignKeys) (h : ∀ w ∈ related, w.Prepared k c)
    (hnames : (related.map fun w => w.relation.name).Nodup) : (keyColumns related).Nodup := by
  have hcolumn {w : RelatedWrite} {column : String} (hw : w.keyColumn? = some column) :
      w.relation.isToOne = true ∧ w.relation.foreignKey = some column := by
    obtain ⟨row, hfirst, hkey⟩ := Option.bind_eq_some_iff.1 hw
    exact ⟨(RelatedWrite.of_first? hfirst).1, hkey⟩
  induction related with
  | nil => exact List.nodup_nil
  | cons w rest ih =>
      obtain ⟨hw, hrest⟩ := List.forall_mem_cons.1 h
      obtain ⟨hname, hnames⟩ := List.nodup_cons.1 hnames
      rw [keyColumns, List.filterMap_cons]
      cases hkey : w.keyColumn? with
      | none => exact ih hrest hnames
      | some column =>
          refine List.nodup_cons.2 ⟨fun hmem => hname ?_, ih hrest hnames⟩
          obtain ⟨v, hv, hvkey⟩ := List.mem_filterMap.1 hmem
          obtain ⟨hwone, hwcolumn⟩ := hcolumn hkey
          obtain ⟨hvone, hvcolumn⟩ := hcolumn hvkey
          have hsame : w.relation = v.relation := hc _ _ hw.relation (hrest v hv).relation hwone
            hvone (hwcolumn.trans hvcolumn.symm)
          exact List.mem_map.2 ⟨v, hv, congrArg Relation.name hsame.symm⟩

end Payload

namespace RelatedWrite

variable {k : Catalog} {c : Collection} {w : RelatedWrite}

/-- The object that was sent for a relation to one row is added, and the key that comes back stands
in the relation's column of the item's row. -/
def WritesInFront (k : Catalog) (values : Record) (w : RelatedWrite) (e : Exchange) : Prop :=
  ∃ row column, w.rows = [row] ∧ w.relation.foreignKey = some column ∧
    k.Adds w.relation.target row e ∧ values.find? column = some (Row.returnedKey e.rows)

theorem Prepared.exists_first? (h : w.Prepared k c) (hone : w.relation.isToOne = true) :
    ∃ row column, w.rows = [row] ∧ w.first? = some row ∧ w.relation.foreignKey = some column := by
  obtain ⟨row, hrow⟩ := h.one hone
  have hmem : w.relation.foreignKey ∈ w.relation.joinKeys := by
    rw [Relation.isToOne] at hone
    cases htype : w.relation.type with
    | manyToOne | oneToOne => simp [Relation.joinKeys, htype]
    | oneToMany | manyToMany =>
        rw [htype] at hone
        cases hone
  obtain ⟨column, hcolumn, -⟩ := h.keyed _ hmem
  refine ⟨row, column, hrow, ?_, hcolumn⟩
  rw [first?, if_pos hone, hrow]
  rfl

theorem first?_eq_none (hone : w.relation.isToOne = false) : w.first? = none := by
  rw [first?, if_neg (by simp [hone])]

/-- Objects in front of the row can be added. -/
theorem Prepared.ready (h : w.Prepared k c)
    (hw : ∀ target, k.find? w.relation.target = some target → w.Storable k target) : w.Ready k := by
  intro row hfirst
  obtain ⟨row', column, hrows, hfirst', hcolumn⟩ := h.exists_first? (of_first? hfirst).1
  cases hfirst.symm.trans hfirst'
  obtain ⟨target, htarget, -⟩ := h.target
  exact ⟨⟨column, hcolumn⟩,
    exists_insertRow htarget ((hw target htarget).rows row (by simp [hrows]))⟩

end RelatedWrite

namespace Payload

open Dialogue

variable {k : Catalog} {c : Collection} {related : List RelatedWrite} {key : Value}

/-- Each object in front of the row has a column of its own for the key that comes back. -/
theorem forall₂_of_addsInFront (hprepared : ∀ w ∈ related, w.Prepared k c) {t : Transcript}
    (h : AddsInFront k related t) :
    t.length = (keyColumns related).length ∧
      List.Forall₂ (fun w e => ∃ row column, w.rows = [row] ∧ w.relation.foreignKey = some column ∧
        k.Adds w.relation.target row e ∧
        (column, Row.returnedKey e.rows) ∈ (keyColumns related).zip t.keys)
      (related.filter fun w => w.relation.isToOne) t := by
  induction related generalizing t with
  | nil =>
      cases h
      exact ⟨rfl, .nil⟩
  | cons w rest ih =>
      obtain ⟨hw, hrest⟩ := List.forall_mem_cons.1 hprepared
      cases hone : w.relation.isToOne with
      | false =>
          have hnone := RelatedWrite.first?_eq_none hone
          rw [AddsInFront, itemsInFront, List.filterMap_cons, hnone] at h
          rw [keyColumns_cons_of_none hnone, List.filter_cons_of_neg (by simp [hone])]
          exact ih hrest h
      | true =>
          obtain ⟨row, column, hrows, hfirst, hcolumn⟩ := hw.exists_first? hone
          rw [AddsInFront, itemsInFront, List.filterMap_cons, hfirst] at h
          cases h with
          | cons hadds h =>
              obtain ⟨hlength, hfront⟩ := ih hrest h
              rw [keyColumns_cons_of_some hfirst hcolumn, List.filter_cons_of_pos (by simp [hone])]
              refine ⟨congrArg Nat.succ hlength, .cons ⟨row, column, hrows, hcolumn, hadds,
                List.mem_cons_self⟩ (hfront.imp ?_)⟩
              rintro v e ⟨row, column, hrows, hcolumn, hadds, hmem⟩
              exact ⟨row, column, hrows, hcolumn, hadds, List.mem_cons_of_mem _ hmem⟩

theorem finishes_writeToMany (hprepared : ∀ w ∈ related, w.Prepared k c)
    (h : ∀ w ∈ related, ∀ target, k.find? w.relation.target = some target → w.Storable k target) :
    (writeToMany k key related).Finishes := by
  induction related with
  | nil => exact finishes_pure ()
  | cons w rest ih =>
      obtain ⟨hw, hrest⟩ := List.forall_mem_cons.1 hprepared
      obtain ⟨hstorable, hothers⟩ := List.forall_mem_cons.1 h
      obtain ⟨target, htarget, hkey⟩ := hw.target
      rw [writeToMany]
      cases htype : w.relation.type with
      | oneToMany =>
          obtain ⟨column, hcolumn, -⟩ := hw.keyed w.relation.foreignKey
            (by simp [Relation.joinKeys, htype])
          exact (finishes_writeOneToMany htarget hkey htype hcolumn (hstorable target htarget)).bind
            fun _ => ih hrest hothers
      | manyToMany =>
          exact (finishes_writeManyToMany htarget htype hw.keyed (hstorable target htarget)).bind
            fun _ => ih hrest hothers
      | manyToOne | oneToOne => exact ih hrest hothers

end Payload

namespace Context

open Dialogue

variable {x : Context} {collection : String} {c : Collection} {p : Payload}

/-- The statements of a finished creation: one for each object in front of the item's row, one for
the row with the keys of these objects in it, and those for what was sent behind it, relation by
relation. -/
def WritesNested (x : Context) (collection : String) (p : Payload) (t : Transcript) (key : Value) :
    Prop :=
  ∃ (front : Transcript) (own : Exchange) (behind : List Transcript),
    t = front ++ own :: behind.flatten ∧
    List.Forall₂ (RelatedWrite.WritesInFront x.catalog (p.withKeys front.keys))
      (p.related.filter fun w => w.relation.isToOne) front ∧
    x.catalog.Adds collection (p.withKeys front.keys) own ∧
    (∀ name, name ∉ Payload.keyColumns p.related →
      (p.withKeys front.keys).find? name = p.values.find? name) ∧
    key = Row.returnedKey own.rows ∧
    List.Forall₂ (fun w part => w.WritesBehind x.catalog key part) p.related behind

theorem writesNested_of_creates {data : Value} {t : Transcript} {key : Value}
    (hp : x.creation collection data = .ok p) (hprepared : ∀ w ∈ p.related, w.Prepared x.catalog c)
    (hstorable : p.Storable x.catalog c) (hcolumns : (Payload.keyColumns p.related).Nodup)
    (h : x.Creates collection data t key) : x.WritesNested collection p t key := by
  obtain ⟨q, front, own, _, hq, rfl, hfront, hown, hkey, behind, rfl, hbehind⟩ := h
  cases hp.symm.trans hq
  obtain ⟨hlength, hfront⟩ := Payload.forall₂_of_addsInFront hprepared hfront
  have hzip : (Named.names ((Payload.keyColumns p.related).zip front.keys)).Nodup := by
    rw [Named.names_zip (by rw [Transcript.keys, List.length_map, hlength])]
    exact hcolumns
  refine ⟨front, own, behind, rfl, hfront.imp ?_, hown, fun name => Payload.find?_withKeys, hkey,
    ?_⟩
  · rintro w e ⟨row, column, hrows, hcolumn, hadds, hmem⟩
    exact ⟨row, column, hrows, hcolumn, hadds, Named.find?_putAll_of_nodup _ hmem hzip⟩
  · refine List.forall₂_iff_zip.2 ⟨hbehind.length_eq, fun {w part} hmem => ?_⟩
    have hw : w ∈ p.related := (List.of_mem_zip hmem).1
    obtain ⟨target, htarget, htargetKey⟩ := (hprepared w hw).target
    exact RelatedWrite.writesBehind_of_addsBehind htarget htargetKey
      (hstorable.related w hw target htarget) ((List.forall₂_iff_zip.1 hbehind).2 hmem)

/-- With a database that answers, the item and all that was sent with it are written. -/
theorem finishes_addRow (hc : x.catalog.find? collection = some c)
    (hprepared : ∀ w ∈ p.related, w.Prepared x.catalog c) (hstorable : p.Storable x.catalog c) :
    (Payload.writeToOne x.catalog p.related p.values >>= x.addRow collection p).Finishes := by
  refine (Payload.finishes_writeToOne fun w hw =>
    (hprepared w hw).ready (hstorable.related w hw)).bind_of_ensures Payload.ensures_writeToOne ?_
  rintro front _ ⟨-, rfl⟩
  have hvalues : c.CanStore (p.values.putAll ((Payload.keyColumns p.related).zip front.keys)) :=
    hstorable.values.putAll fun column hcolumn =>
      hstorable.keys column (Payload.names_zip_subset hcolumn)
  exact (Catalog.finishes_insertItem (exists_insertRow hc hvalues)).bind fun key =>
    (Payload.finishes_writeToMany hprepared hstorable.related).bind fun _ => finishes_pure key

end Context

/-- **Nested data is written completely and once.** A creation that is accepted, and whose
statements can be made, is committed with every database that answers. Behind the relations it has
prepared exactly what was sent. It has executed one statement for each object that was sent for a
relation to one row, whose key stands in that relation's column, then one for the item's row, then
for each relation to many rows one for each row that was sent and, if there is anything to be
linked, one that links it. -/
theorem nested_data_written_once {x : Context} {collection : String} {c : Collection}
    {grant : Grant} {entries : Record} {p : Payload} (hk : x.catalog.Keyed)
    (hc : x.catalog.find collection = .ok c) (hkeys : c.DistinctForeignKeys)
    (hnames : (Named.names entries).Nodup) (hgrant : x.grant collection .create = .ok grant)
    (hp : Payload.prepare x.catalog c grant x.resolver (.record entries) = .ok p)
    (hcheck : x.checkCreation grant p.values = .ok ()) (hstorable : p.Storable x.catalog c)
    {db : Database} (hdb : db.Answers) (past : List Command) :
    List.Forall₂ (RelatedWrite.Sends x.catalog grant.allowlist) (c.sentItems entries) p.related ∧
    ∃ said key t, (x.createItem collection (.record entries)).run db past =
        (.release :: .commit :: said, .ok key) ∧
      Transcript.Follows db (.connect :: past) t said ∧ x.WritesNested collection p t key := by
  obtain ⟨_, hdata, hwithin⟩ := Payload.within_of_prepare hp
  cases hdata
  have hfind := Catalog.find?_of_find hc
  have hprepared := Payload.prepared_of_within hk (List.mem_of_find?_eq_some hfind) hwithin
  have hcreation : x.creation collection (.record entries) = .ok p :=
    Context.creation_eq_ok.2 ⟨grant, c, hgrant, hc, hp, hcheck⟩
  have hrelated : (p.related.map fun w => w.relation.name).Nodup := by
    have hmap : (p.related.map fun w => w.relation.name) =
        (c.sentItems entries).map fun sent => sent.1.name := by
      have := congrArg (List.map Relation.name) (Payload.map_relation_of_within hwithin)
      rwa [List.map_map, List.map_map] at this
    rw [hmap]
    exact Collection.sublist_names_sentItems.nodup hnames
  obtain ⟨said, key, t, hrun, ht, hcreates⟩ :=
    Dialogue.exists_run_transaction (Context.finishes_addRow hfind hprepared hstorable)
      (Context.ensures_addRow hcreation) hdb past
  refine ⟨hwithin.related, said, key, t, ?_, ht, Context.writesNested_of_creates hcreation hprepared
    hstorable (Payload.nodup_keyColumns hkeys hprepared hrelated) hcreates⟩
  rw [Context.run_createItem hcreation]
  exact hrun

/-! ## A post with everything -/

namespace Sample

/-- A post with a new author, a new comment and one that exists, and a new tag and one that exists.
-/
def fullPost : Record :=
  [("title", .text "t"), ("author", .record [("name", .text "x")]),
    ("comments", .list [.record [("body", .text "b"), ("post_id", .text "other")], .text "c1"]),
    ("tags", .list [.text "t1", .record [("label", .text "l")]])]

/-- What is prepared for it. -/
def fullPayload : Payload :=
  ⟨[("title", .text "t")],
    [⟨author, "id", [[("name", .text "x")]], []⟩,
      ⟨⟨"comments", .oneToMany, "comments", some "post_id", none, none, none⟩, "id",
        [[("body", .text "b"), ("post_id", .text "other")]], [.text "c1"]⟩,
      ⟨⟨"tags", .manyToMany, "tags", none, some "posts_tags", some "post_id", some "tag_id"⟩, "id",
        [[("label", .text "l")]], [.text "t1"]⟩]⟩

/-- The key of the comments. -/
def commentKey : Field :=
  ⟨"id", .uuid, true, false⟩

theorem keyed_blog (keys : List Field) : (blog keys).catalog.Keyed := by
  intro c hc r hr
  have hr : r ∈ discussed.relations := by
    simp only [blog, Context.catalog, List.mem_cons, List.not_mem_nil, or_false] at hc
    rcases hc with rfl | rfl | rfl | rfl
    · exact hr
    all_goals cases hr
  simp only [discussed, author, List.mem_cons, List.not_mem_nil, or_false] at hr
  rcases hr with rfl | rfl | rfl <;> simp [Relation.Keyed, Relation.joinKeys]

/-- Posts refer to one row of one kind only, their author. -/
theorem distinctForeignKeys_discussed : discussed.DistinctForeignKeys := by
  have hauthor {r : Relation} (hr : discussed.relation? r.name = some r) (hone : r.isToOne = true) :
      r = author := by
    have hmem := List.mem_of_find?_eq_some hr
    simp only [discussed, List.mem_cons, List.not_mem_nil, or_false] at hmem
    rcases hmem with rfl | rfl | rfl
    · rfl
    all_goals cases hone
  intro r s hr hs hrone hsone _
  rw [hauthor hr hrone, hauthor hs hsone]

theorem storable_fullPayload :
    fullPayload.Storable (blog [commentKey]).catalog discussed := by
  refine ⟨Collection.canStore_of_fields (by decide) _,
    fun column _ => Collection.family?_ne_geometry (by decide) column,
    fun w hw target htarget => ?_⟩
  simp only [fullPayload, List.mem_cons, List.not_mem_nil, or_false] at hw
  rcases hw with rfl | rfl | rfl <;>
    (cases htarget; exact RelatedWrite.storable_of_fields (by decide) (by decide))

end Sample

open Sample in
/-- The post is written with its author, its comments and its tags, whatever keys come back. -/
theorem nested_data_written_once_fullPost :
    ((blog [commentKey]).catalog.Keyed ∧
      (blog [commentKey]).catalog.find "posts" = .ok discussed ∧
      discussed.DistinctForeignKeys ∧ (Named.names fullPost).Nodup ∧
      (blog [commentKey]).grant "posts" .create = .ok .admin ∧
      Payload.prepare (blog [commentKey]).catalog discussed .admin (blog [commentKey]).resolver
        (.record fullPost) = .ok fullPayload ∧
      (blog [commentKey]).checkCreation .admin fullPayload.values = .ok () ∧
      fullPayload.Storable (blog [commentKey]).catalog discussed ∧
      (Database.replying []).Answers) ∧
    List.Forall₂ (RelatedWrite.Sends (blog [commentKey]).catalog Grant.admin.allowlist)
      (discussed.sentItems fullPost) fullPayload.related ∧
    ∃ said key t, ((blog [commentKey]).createItem "posts" (.record fullPost)).run
        (Database.replying []) [] = (.release :: .commit :: said, .ok key) ∧
      Transcript.Follows (Database.replying []) [.connect] t said ∧
      (blog [commentKey]).WritesNested "posts" fullPayload t key := by
  have hnames : (Named.names fullPost).Nodup := by decide
  have hdb : (Database.replying []).Answers := by
    refine fun past c => ⟨_, rfl, fun row hrow => ?_⟩
    obtain rfl := List.mem_singleton.1 hrow
    exact ⟨_, rfl⟩
  exact ⟨⟨keyed_blog _, rfl, distinctForeignKeys_discussed, hnames, rfl, rfl, rfl,
      storable_fullPayload, hdb⟩,
    nested_data_written_once (keyed_blog _) rfl distinctForeignKeys_discussed hnames rfl rfl rfl
      storable_fullPayload hdb []⟩

open Sample in
/-- Where the comments declare no key, a post is added, and then turned down because of the comment
that it should be linked with: the default key, which comes back from every statement, is unknown to
the condition on the linked rows. -/
theorem linked_comments_turned_down :
    ((blog []).catalog.Keyed ∧ (blog []).catalog.find "posts" = .ok discussed ∧
      discussed.DistinctForeignKeys ∧
      (∃ p, Payload.prepare (blog []).catalog discussed .admin (blog []).resolver
          (.record [("title", .text "t"), ("comments", .list [.text "c1"])]) = .ok p ∧
        (blog []).checkCreation .admin p.values = .ok ()) ∧
      (Database.replying [.null, .text "p1"]).Answers) ∧
    ((blog []).createItem "posts"
        (.record [("title", .text "t"), ("comments", .list [.text "c1"])])).run
      (Database.replying [.null, .text "p1"]) [] =
      ([.release, .rollback, .rollback,
        .execute (.change (.insert "posts" [("title", .plain (.text "t"))] "id")), .connect],
        refuse (.unknownField "id" "comments")) := by
  refine ⟨⟨keyed_blog _, rfl, distinctForeignKeys_discussed, ⟨_, rfl, rfl⟩, fun past c =>
    ⟨_, rfl, fun row hrow => ?_⟩⟩, rfl⟩
  obtain rfl := List.mem_singleton.1 hrow
  exact ⟨_, rfl⟩

end Warden
