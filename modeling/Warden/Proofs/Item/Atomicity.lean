import Warden.Proofs.Database.Transaction
import Warden.Proofs.Item.ToOne

/-! # Writing an item is one transaction

Whatever is sent behind the relations of an item, the item is written with all of it or not at all.
The statements of a finished write are those that the payload asks for, each of them once and in
order:

* **`Payload.AddsInFront`**: one for each item in front of the row, whose keys go into the row.
* **`RelatedWrite.AddsBehind`**: for each relation to many rows one for each item that is sent for
  it, and one that links what has to be linked.
* **`Context.Creates`** and **`Context.Changes`**: these before and after the statement for the row.

If one of them cannot be made or fails, or the commit does, all are rolled back
(`item_written_or_rolled_back`). -/

namespace Warden

open Dialogue

/-! ## Adding one item -/

/-- The key that comes back, absent if none does. -/
def Row.returnedKey (rows : List Row) : Value :=
  match first? rows with
  | some r => (r.cell 0).toOption.getD .null
  | none => .null

/-- The keys that came back, one for each statement. -/
def Transcript.keys (t : Transcript) : List Value :=
  t.map fun e => Row.returnedKey e.rows

/-- The statement adds an item with these values. -/
def Catalog.Adds (k : Catalog) (collection : String) (values : Record) (e : Exchange) : Prop :=
  ∃ s, Sql.insertRow k collection values = .ok s ∧ e.statement = .change s

namespace Catalog

variable {k : Catalog} {collection : String} {values : Record}

/-- To add an item is to execute one statement; its key is the one that comes back. -/
theorem ensures_insertItem : (k.insertItem collection values).Ensures fun t key =>
    ∃ e, k.Adds collection values e ∧ t = [e] ∧ key = Row.returnedKey e.rows := by
  refine ensures_lift_bind fun s hs => (ensures_execute _).bind ?_
  rintro t rows rfl
  have hadds : k.Adds collection values ⟨.change s, rows⟩ := ⟨s, hs, rfl⟩
  cases hfirst : Row.first? rows with
  | none => exact ensures_pure ⟨_, hadds, rfl, by rw [Row.returnedKey, hfirst]⟩
  | some r =>
      rintro db past after key hrun
      obtain ⟨rfl, hkey⟩ := Prod.mk.inj hrun
      have hcell : r.cell 0 = .ok key := hkey
      refine ⟨[], .nil past, _, hadds, rfl, ?_⟩
      simp only [Row.returnedKey, hfirst, hcell]
      rfl

theorem executing_insertItem : (k.insertItem collection values).Executing := by
  refine executing_lift_bind fun s _ => (executing_execute _).bind fun rows => ?_
  cases Row.first? rows with
  | none => exact executing_done _
  | some r => exact executing_done _

/-- To change items is to execute one statement; their keys are those that come back. -/
theorem ensures_updateItems {f : Filter} {relConditions : Named Filter} :
    (k.updateItems collection f values relConditions).Ensures fun t keys =>
      ∃ s rows, Sql.updateRows k collection f values relConditions = .ok s ∧
        t = [⟨.change s, rows⟩] ∧ Row.keys rows = .ok keys := by
  refine ensures_lift_bind fun s hs => (ensures_execute _).bind ?_
  rintro t rows rfl db past after keys hrun
  obtain ⟨rfl, hkeys⟩ := Prod.mk.inj hrun
  exact ⟨[], .nil past, s, rows, hs, rfl, hkeys⟩

/-- To link items is to execute one statement. -/
theorem ensures_linkItems {r : Relation} {source : Value} {targets : List Value} :
    (linkItems r source targets).Ensures fun t _ =>
      ∃ s rows, Sql.linkRows r source targets = .ok s ∧ t = [⟨.change s, rows⟩] := by
  refine ensures_lift_bind fun s hs => (ensures_execute _).bind ?_
  rintro t rows rfl
  exact ensures_pure ⟨s, rows, hs, rfl⟩

theorem executing_updateItems {f : Filter} {relConditions : Named Filter} :
    (k.updateItems collection f values relConditions).Executing :=
  executing_lift_bind fun _ _ => (executing_execute _).bind fun _ => executing_done _

theorem executing_linkItems {r : Relation} {source : Value} {targets : List Value} :
    (linkItems r source targets).Executing :=
  executing_lift_bind fun _ _ => (executing_execute _).bind fun _ => executing_done _

end Catalog

/-! ## Items in front of the row -/

namespace Payload

variable {k : Catalog} {related : List RelatedWrite} {values : Record} {t : Transcript}

/-- The items that are created in front of the row, each with its collection. -/
def itemsInFront (related : List RelatedWrite) : List (String × Record) :=
  related.filterMap fun w => w.first?.map fun row => (w.relation.target, row)

/-- The statements add the items in front of the row, one by one. -/
def AddsInFront (k : Catalog) (related : List RelatedWrite) (t : Transcript) : Prop :=
  List.Forall₂ (fun item e => k.Adds item.1 item.2 e) (itemsInFront related) t

/-- All items in front of the row are added, and their keys are put into the row. -/
theorem ensures_writeToOne : (writeToOne k related values).Ensures fun t stored =>
    AddsInFront k related t ∧ stored = values.putAll ((keyColumns related).zip t.keys) := by
  induction related generalizing values with
  | nil => exact ensures_pure ⟨.nil, rfl⟩
  | cons w rest ih =>
      cases hw : w.first? with
      | none =>
          have hitems : itemsInFront (w :: rest) = itemsInFront rest := by
            rw [itemsInFront, List.filterMap_cons, hw]
            rfl
          rw [writeToOne_cons_of_none hw, keyColumns_cons_of_none hw]
          simp only [AddsInFront, hitems]
          exact ih
      | some row =>
          have hitems :
              itemsInFront (w :: rest) = (w.relation.target, row) :: itemsInFront rest := by
            rw [itemsInFront, List.filterMap_cons, hw]
            rfl
          cases hc : w.relation.foreignKey with
          | none =>
              rw [(writeToOne_cons_of_some hw).1 hc]
              exact ensures_refuse _
          | some column =>
              rw [(writeToOne_cons_of_some hw).2 column hc]
              refine Catalog.ensures_insertItem.bind ?_
              rintro _ key ⟨e, hadds, rfl, rfl⟩
              refine ih.mono ?_
              rintro u stored ⟨hrest, rfl⟩
              simp only [AddsInFront, hitems, keyColumns_cons_of_some hw hc]
              exact ⟨.cons hadds hrest, rfl⟩

theorem executing_writeToOne : (writeToOne k related values).Executing := by
  induction related generalizing values with
  | nil => exact executing_done _
  | cons w rest ih =>
      cases hw : w.first? with
      | none =>
          rw [writeToOne_cons_of_none hw]
          exact ih
      | some row =>
          cases hc : w.relation.foreignKey with
          | none =>
              rw [(writeToOne_cons_of_some hw).1 hc]
              exact executing_done _
          | some column =>
              rw [(writeToOne_cons_of_some hw).2 column hc]
              exact Catalog.executing_insertItem.bind fun key => ih

/-! ## Items behind the row -/

/-- All the items are added, with the key in their column. -/
theorem ensures_insertOwned {target column : String} {key : Value} {rows : List Record} :
    (insertOwned k target column key rows).Ensures fun t _ =>
      List.Forall₂ (fun row e => k.Adds target (row.insert column key) e) rows t := by
  induction rows with
  | nil => exact ensures_pure .nil
  | cons row rest ih =>
      refine Catalog.ensures_insertItem.bind ?_
      rintro _ _ ⟨e, hadds, rfl, -⟩
      exact ih.mono fun u _ hrest => .cons hadds hrest

/-- All the items are added, and their keys come back. -/
theorem ensures_insertAll {target : String} {rows : List Record} :
    (insertAll k target rows).Ensures fun t keys =>
      List.Forall₂ (fun row e => k.Adds target row e) rows t ∧ keys = t.keys := by
  induction rows with
  | nil => exact ensures_pure ⟨.nil, rfl⟩
  | cons row rest ih =>
      refine Catalog.ensures_insertItem.bind ?_
      rintro _ key ⟨e, hadds, rfl, rfl⟩
      refine ih.bind ?_
      rintro u keys ⟨hrest, rfl⟩
      refine ensures_pure ?_
      rw [List.append_nil]
      exact ⟨.cons hadds hrest, rfl⟩

theorem executing_insertOwned {target column : String} {key : Value} {rows : List Record} :
    (insertOwned k target column key rows).Executing := by
  induction rows with
  | nil => exact executing_done _
  | cons row rest ih => exact Catalog.executing_insertItem.bind fun _ => ih

theorem executing_insertAll {target : String} {rows : List Record} :
    (insertAll k target rows).Executing := by
  induction rows with
  | nil => exact executing_done _
  | cons row rest ih =>
      exact Catalog.executing_insertItem.bind fun _ => ih.bind fun _ => executing_done _

end Payload

namespace RelatedWrite

/-- The statements give the rows of the keys the key of the item, if there are keys. -/
def Adopts (k : Catalog) (w : RelatedWrite) (column : String) (key : Value) (t : Transcript) :
    Prop :=
  if w.keys.isEmpty then t = []
  else
    ∃ s rows, Sql.updateRows k w.relation.target (.leaf ⟨w.targetKey, .isIn, .list w.keys, none⟩)
      [(column, key)] [] = .ok s ∧ t = [⟨.change s, rows⟩]

/-- The statements link the item with the keys, if there are keys. -/
def Links (w : RelatedWrite) (key : Value) (keys : List Value) (t : Transcript) : Prop :=
  if keys.isEmpty then t = []
  else ∃ s rows, Sql.linkRows w.relation key keys = .ok s ∧ t = [⟨.change s, rows⟩]

/-- The statements add and link all that was sent for a relation to many rows. -/
def AddsBehind (k : Catalog) (key : Value) (w : RelatedWrite) (t : Transcript) : Prop :=
  match w.relation.type with
  | .oneToMany => ∃ column added linked, w.relation.foreignKey = some column ∧
      t = added ++ linked ∧
      List.Forall₂ (fun row e => k.Adds w.relation.target (row.insert column key) e) w.rows added ∧
      w.Adopts k column key linked
  | .manyToMany => ∃ added linked, t = added ++ linked ∧
      List.Forall₂ (fun row e => k.Adds w.relation.target row e) w.rows added ∧
      w.Links key (w.keys ++ added.keys) linked
  | .manyToOne | .oneToOne => t = []

end RelatedWrite

namespace Payload

variable {k : Catalog} {w : RelatedWrite} {key : Value} {related : List RelatedWrite}

theorem ensures_writeOneToMany (htype : w.relation.type = .oneToMany) :
    (writeOneToMany k w key).Ensures fun t _ => w.AddsBehind k key t := by
  rw [writeOneToMany]
  cases hc : w.relation.foreignKey with
  | none => exact ensures_refuse _
  | some column =>
      refine ensures_insertOwned.bind ?_
      rintro added _ hadded
      simp only [RelatedWrite.AddsBehind, htype]
      by_cases hkeys : w.keys.isEmpty = true
      · rw [if_pos hkeys]
        refine ensures_pure ⟨column, added, [], hc, rfl, hadded, ?_⟩
        rw [RelatedWrite.Adopts, if_pos hkeys]
      · rw [if_neg hkeys]
        refine Catalog.ensures_updateItems.bind ?_
        rintro linked _ ⟨s, rows, hs, rfl, -⟩
        refine ensures_pure ⟨column, added, _, hc, congrArg (added ++ ·) (List.append_nil _),
          hadded, ?_⟩
        rw [RelatedWrite.Adopts, if_neg hkeys]
        exact ⟨s, rows, hs, rfl⟩

theorem ensures_writeManyToMany (htype : w.relation.type = .manyToMany) :
    (writeManyToMany k w key).Ensures fun t _ => w.AddsBehind k key t := by
  refine ensures_insertAll.bind ?_
  rintro added _ ⟨hadded, rfl⟩
  simp only [RelatedWrite.AddsBehind, htype]
  by_cases hkeys : (w.keys ++ added.keys).isEmpty = true
  · rw [if_pos hkeys]
    refine ensures_pure ⟨added, [], rfl, hadded, ?_⟩
    rw [RelatedWrite.Links, if_pos hkeys]
  · rw [if_neg hkeys]
    refine Catalog.ensures_linkItems.mono ?_
    rintro linked _ ⟨s, rows, hs, rfl⟩
    refine ⟨added, _, rfl, hadded, ?_⟩
    rw [RelatedWrite.Links, if_neg hkeys]
    exact ⟨s, rows, hs, rfl⟩

theorem executing_writeOneToMany : (writeOneToMany k w key).Executing := by
  rw [writeOneToMany]
  cases w.relation.foreignKey with
  | none => exact executing_done _
  | some column =>
      refine executing_insertOwned.bind fun _ => ?_
      by_cases hkeys : w.keys.isEmpty = true
      · rw [if_pos hkeys]
        exact executing_done _
      · rw [if_neg hkeys]
        exact Catalog.executing_updateItems.bind fun _ => executing_done _

theorem executing_writeManyToMany : (writeManyToMany k w key).Executing := by
  refine executing_insertAll.bind fun created => ?_
  by_cases hkeys : (w.keys ++ created).isEmpty = true
  · rw [if_pos hkeys]
    exact executing_done _
  · rw [if_neg hkeys]
    exact Catalog.executing_linkItems

/-- The statements add and link all that was sent behind the relations, one relation after the
other. -/
def AddsBehind (k : Catalog) (key : Value) (related : List RelatedWrite) (t : Transcript) : Prop :=
  ∃ parts : List Transcript, t = parts.flatten ∧
    List.Forall₂ (fun w part => w.AddsBehind k key part) related parts

theorem AddsBehind.cons {t u : Transcript} {rest : List RelatedWrite} (hw : w.AddsBehind k key t)
    (hrest : AddsBehind k key rest u) : AddsBehind k key (w :: rest) (t ++ u) := by
  obtain ⟨parts, rfl, hparts⟩ := hrest
  exact ⟨t :: parts, rfl, .cons hw hparts⟩

/-- Everything behind the row is added and linked. -/
theorem ensures_writeToMany : (writeToMany k key related).Ensures fun t _ =>
    AddsBehind k key related t := by
  induction related with
  | nil => exact ensures_pure ⟨[], rfl, .nil⟩
  | cons w rest ih =>
      have hrest : ∀ t, w.AddsBehind k key t →
          (writeToMany k key rest).Ensures fun u _ => AddsBehind k key (w :: rest) (t ++ u) :=
        fun t ht => ih.mono fun u _ hu => AddsBehind.cons ht hu
      rw [writeToMany]
      cases htype : w.relation.type with
      | oneToMany => exact (ensures_writeOneToMany htype).bind fun t _ ht => hrest t ht
      | manyToMany => exact (ensures_writeManyToMany htype).bind fun t _ ht => hrest t ht
      | manyToOne | oneToOne =>
          refine hrest [] ?_
          simp only [RelatedWrite.AddsBehind, htype]

theorem executing_writeToMany : (writeToMany k key related).Executing := by
  induction related with
  | nil => exact executing_done _
  | cons w rest ih =>
      rw [writeToMany]
      cases w.relation.type with
      | oneToMany => exact executing_writeOneToMany.bind fun _ => ih
      | manyToMany => exact executing_writeManyToMany.bind fun _ => ih
      | manyToOne | oneToOne => exact ih

end Payload

/-! ## Items -/

namespace Context

variable {x : Context} {collection : String}

/-- The statements of a finished creation: those for the items in front of the row, the one that
adds the row with their keys in it, and those for the items behind it. -/
def Creates (x : Context) (collection : String) (data : Value) (t : Transcript) (key : Value) :
    Prop :=
  ∃ p front own behind, x.creation collection data = .ok p ∧ t = front ++ own :: behind ∧
    Payload.AddsInFront x.catalog p.related front ∧
    x.catalog.Adds collection (p.withKeys front.keys) own ∧
    key = Row.returnedKey own.rows ∧
    Payload.AddsBehind x.catalog key p.related behind

/-- The statements of a finished change: those for the items in front of the row, the one that
changes the row, of which the key comes back, and those for the items behind it. -/
def Changes (x : Context) (collection item : String) (data : Record) (t : Transcript)
    (key : Value) : Prop :=
  ∃ r front s rows keys behind, x.change collection item data = .ok r ∧
    t = front ++ ⟨.change s, rows⟩ :: behind ∧
    Payload.AddsInFront x.catalog r.payload.related front ∧
    Sql.updateRows x.catalog collection r.security.filter
      (updatedValues r.collection (.text item) (r.payload.withKeys front.keys))
      r.security.relConditions = .ok s ∧
    Row.keys rows = .ok (key :: keys) ∧
    Payload.AddsBehind x.catalog key r.payload.related behind

/-- What a new item is written with, once it may be created. -/
theorem ensures_addRow {data : Value} {p : Payload} (hp : x.creation collection data = .ok p) :
    (Payload.writeToOne x.catalog p.related p.values >>= x.addRow collection p).Ensures
      (x.Creates collection data) := by
  refine Payload.ensures_writeToOne.bind ?_
  rintro front _ ⟨hfront, rfl⟩
  refine Catalog.ensures_insertItem.bind ?_
  rintro _ key ⟨own, hown, rfl, rfl⟩
  refine Payload.ensures_writeToMany.bind ?_
  intro behind _ hbehind
  refine ensures_pure ⟨p, front, own, behind, hp, ?_, hfront, hown, rfl, hbehind⟩
  rw [List.append_nil, List.singleton_append]

theorem executing_addRow {p : Payload} {values : Record} :
    (x.addRow collection p values).Executing :=
  Catalog.executing_insertItem.bind fun _ =>
    Payload.executing_writeToMany.bind fun _ => executing_done _

/-- What an item is changed with, once it may be changed. Without a row that has the key there is no
result. -/
theorem ensures_changeRow {item : String} {data : Record} {r : RowChange}
    (hr : x.change collection item data = .ok r) :
    (Payload.writeToOne x.catalog r.payload.related r.payload.values >>= fun stored =>
      x.changeRow collection item r (updatedValues r.collection (.text item) stored)).Ensures
      (x.Changes collection item data) := by
  refine Payload.ensures_writeToOne.bind ?_
  rintro front _ ⟨hfront, rfl⟩
  refine Catalog.ensures_updateItems.bind ?_
  rintro _ keys ⟨s, rows, hs, rfl, hkeys⟩
  cases keys with
  | nil => exact ensures_refuse _
  | cons key keys =>
      refine Payload.ensures_writeToMany.bind ?_
      intro behind _ hbehind
      refine ensures_pure ⟨r, front, s, rows, keys, behind, hr, ?_, hfront, hs, hkeys, hbehind⟩
      rw [List.append_nil, List.singleton_append]

theorem executing_changeRow {item : String} {r : RowChange} {values : Record} :
    (x.changeRow collection item r values).Executing := by
  refine Catalog.executing_updateItems.bind fun keys => ?_
  cases keys with
  | nil => exact executing_done _
  | cons key keys => exact Payload.executing_writeToMany.bind fun _ => executing_done _

end Context

/-- **An item is written with everything that is sent behind its relations, or not at all.** However
the database replies to each of the commands, creating and changing an item either give no key and
leave nothing committed, with two rollbacks right after whatever was executed, or give the key that
came back for the item's own row, after the statements that the payload asks for, each of them once
and in order, and the commit of them all. Only a connection whose last rollback has failed is not
given back. -/
theorem item_written_or_rolled_back (x : Context) (db : Database) (past : List Command) :
    (∀ collection data, Atomic db past (x.Creates collection data)
      ((x.createItem collection data).run db past)) ∧
    ∀ collection item data, Atomic db past (x.Changes collection item data)
      ((x.updateItem collection item data).run db past) := by
  constructor
  · intro collection data
    refine atomic_lift_bind fun p hp => ?_
    exact atomic_transaction (Payload.executing_writeToOne.bind fun _ => Context.executing_addRow)
      (Context.ensures_addRow hp) db past
  · intro collection item data
    refine atomic_lift_bind fun r hr => ?_
    exact atomic_transaction
      (Payload.executing_writeToOne.bind fun _ => Context.executing_changeRow)
      (Context.ensures_changeRow hr) db past

end Warden
