import Warden.Proofs.Database.Answering
import Warden.Proofs.Item.Atomicity
import Warden.Proofs.Query.Rendering
import Warden.Proofs.Schema.JoinKeys
import Warden.Proofs.Text.Path

/-! # Which payloads can be stored

A statement that writes can be made if the collection is declared and the values of geometry columns
have JSON texts (**`Collection.CanStore`**, `exists_insertRow`). A statement that gives a key to
rows listed by their own keys also looks the column of these keys up, as conditions do with every
field, so the target must declare it (**`updateRows_listed`**).

**`Payload.Storable`** collects what the statements of a payload need. One after another, the
dialogues that write it then finish (**`Dialogue.Finishes`**) with every database that answers. -/

namespace Warden

open Sql

/-! ## Values that can be written -/

/-- Values of geometry columns have JSON texts, so the values can be written. -/
def Collection.CanStore (c : Collection) (values : Record) : Prop :=
  ∀ entry ∈ values, c.family? entry.1 = some .geometry → entry.2.HasJson

namespace Collection

variable {c : Collection} {values : Record} {column name : String} {key v : Value}

theorem exists_written_iff :
    (∃ w, written c name v = .ok w) ↔ (c.family? name = some .geometry → v.HasJson) := by
  have hnull : Value.null.HasJson := ⟨_, rfl⟩
  cases hfamily : c.family? name with
  | none => cases v <;> simp [written, hfamily]
  | some family =>
      cases family with
      | geometry =>
          have hgeometry {v : Value} :
              (∃ w, (geometryText v >>= fun s => pure (Written.geometry s)) = .ok w) ↔
                v.HasJson := by
            rw [← exists_geometryText_iff]
            simp only [Outcome.bind_eq_ok, Outcome.pure_eq_ok]
            constructor
            · rintro ⟨_, s, hs, -⟩
              exact ⟨s, hs⟩
            · rintro ⟨s, hs⟩
              exact ⟨_, s, hs, rfl⟩
          cases v with
          | null => simp [written, hnull]
          | _ => simpa [written, hfamily] using hgeometry
      | _ => cases v <;> simp [written, hfamily]

theorem exists_writtenAll_iff : (∃ ws, writtenAll c values = .ok ws) ↔ c.CanStore values := by
  induction values with
  | nil => exact iff_of_true ⟨[], rfl⟩ (List.forall_mem_nil _)
  | cons entry values ih =>
      obtain ⟨name, v⟩ := entry
      rw [CanStore, List.forall_mem_cons, ← exists_written_iff, ← CanStore, ← ih, writtenAll]
      simp only [Outcome.bind_eq_ok, Outcome.pure_eq_ok]
      constructor
      · rintro ⟨_, w, hw, ws, hws, -⟩
        exact ⟨⟨w, hw⟩, ws, hws⟩
      · rintro ⟨⟨w, hw⟩, ws, hws⟩
        exact ⟨_, w, hw, ws, hws, rfl⟩

/-- A column that holds no geometries can get any key. -/
theorem CanStore.insert (h : c.CanStore values) (hcolumn : c.family? column ≠ some .geometry)
    (key : Value) : c.CanStore (values.insert column key) := by
  intro entry hentry hgeometry
  rcases Named.mem_insert hentry with rfl | hentry
  · exact absurd hgeometry hcolumn
  · exact h entry hentry hgeometry

theorem CanStore.putAll (h : c.CanStore values) {entries : Record}
    (hcolumns : ∀ column ∈ Named.names entries, c.family? column ≠ some .geometry) :
    c.CanStore (values.putAll entries) := by
  induction entries generalizing values with
  | nil => exact h
  | cons entry entries ih =>
      obtain ⟨hcolumn, hcolumns⟩ := List.forall_mem_cons.1 hcolumns
      exact ih (h.insert hcolumn entry.2) hcolumns

/-- Where no field holds geometries, no column does. -/
theorem family?_ne_geometry (h : ∀ f ∈ c.fields, f.type.family ≠ .geometry) (name : String) :
    c.family? name ≠ some .geometry := by
  intro hfamily
  obtain ⟨f, hf, hgeometry⟩ := Option.map_eq_some_iff.1 hfamily
  exact h f (List.mem_of_find?_eq_some hf) hgeometry

theorem canStore_of_fields (h : ∀ f ∈ c.fields, f.type.family ≠ .geometry) (values : Record) :
    c.CanStore values :=
  fun entry _ hgeometry => absurd hgeometry (family?_ne_geometry h entry.1)

end Collection

theorem Catalog.find_of_find? {k : Catalog} {collection : String} {c : Collection}
    (h : k.find? collection = some c) : k.find collection = .ok c := by
  rw [find, h]

theorem Sql.exists_insertRow {k : Catalog} {collection : String} {c : Collection} {values : Record}
    (hc : k.find? collection = some c) (h : c.CanStore values) :
    ∃ s, insertRow k collection values = .ok s := by
  obtain ⟨ws, hws⟩ := Collection.exists_writtenAll_iff.2 h
  exact ⟨_, Outcome.bind_eq_ok.2 ⟨c, Catalog.find_of_find? hc,
    Outcome.bind_eq_ok.2 ⟨ws, hws, rfl⟩⟩⟩

/-! ## What a payload needs -/

namespace RelatedWrite

/-- The statements for what is sent behind the relation can be made: the values of its rows can be
written, and if rows are linked that have keys of their own, the target declares the column of
these keys. -/
structure Storable (k : Catalog) (w : RelatedWrite) (target : Collection) : Prop where
  /-- The rows can be written. -/
  rows : ∀ row ∈ w.rows, target.CanStore row
  /-- A column of the target that gets the key of the item holds no geometries. -/
  column : w.relation.type = .oneToMany → ∀ column, w.relation.foreignKey = some column →
    target.family? column ≠ some .geometry
  /-- The key of linked rows is a declared field, whose name is no path. -/
  linked : w.relation.type = .oneToMany → w.keys ≠ [] →
    target.hasField target.primaryKey = true ∧ '.' ∉ target.primaryKey.toList

/-- A target without geometries can store all rows; linked rows still need its key. -/
theorem storable_of_fields {k : Catalog} {w : RelatedWrite} {target : Collection}
    (h : ∀ f ∈ target.fields, f.type.family ≠ .geometry)
    (hlinked : target.hasField target.primaryKey = true ∧ '.' ∉ target.primaryKey.toList) :
    w.Storable k target where
  rows _ _ := Collection.canStore_of_fields h _
  column _ column _ := Collection.family?_ne_geometry h column
  linked _ _ := hlinked

end RelatedWrite

/-- The statements for the item and all that is sent behind its relations can be made. -/
structure Payload.Storable (k : Catalog) (c : Collection) (p : Payload) : Prop where
  /-- The values of the item can be written. -/
  values : c.CanStore p.values
  /-- The columns of the item that get keys hold no geometries. -/
  keys : ∀ column ∈ keyColumns p.related, c.family? column ≠ some .geometry
  /-- So it is behind each relation. -/
  related : ∀ w ∈ p.related, ∀ target, k.find? w.relation.target = some target → w.Storable k target

/-! ## Statements that link -/

/-- The statement that gives a key to the rows whose own keys are listed, and that are not marked as
deleted where rows are marked. -/
def Sql.relinking (target : Collection) (keys : List Value) (column : String) (w : Written) :
    Change :=
  .update target.tableName [(column, w)]
    (.test (.anyOf ⟨⟨baseAlias, target.primaryKey⟩, none⟩ keys) ::
      if target.paranoid then [.test (.alive baseAlias)] else [])
    target.primaryKey

theorem Sql.updateRows_listed {k : Catalog} {collection column : String} {target : Collection}
    {keys : List Value} {key : Value} {w : Written} (hfind : k.find? collection = some target)
    (hkeys : keys ≠ []) (hfield : target.hasField target.primaryKey = true)
    (hdot : '.' ∉ target.primaryKey.toList) (hw : written target column key = .ok w) :
    updateRows k collection (.leaf ⟨target.primaryKey, .isIn, .list keys, none⟩) [(column, key)]
      [] = .ok (relinking target keys column w) := by
  have hvalues : writtenAll target [(column, key)] = .ok [(column, w)] :=
    Outcome.bind_eq_ok.2 ⟨w, hw, rfl⟩
  obtain ⟨field, hfield⟩ := Option.isSome_iff_exists.1 hfield
  have htruthy : (Value.list keys).truthy = true := by
    cases keys with
    | nil => exact absurd rfl hkeys
    | cons key keys => rfl
  have hpredicate : fieldPredicate target baseAlias target.primaryKey
      ⟨target.primaryKey, .isIn, .list keys, none⟩ =
        .ok (.test (.anyOf ⟨⟨baseAlias, target.primaryKey⟩, none⟩ keys)) := by
    simp only [fieldPredicate, hfield, operatorPredicate, htruthy, if_true]
    rfl
  have hconditions : rowConditions k target
      (.leaf ⟨target.primaryKey, .isIn, .list keys, none⟩) [] =
        .ok (.test (.anyOf ⟨⟨baseAlias, target.primaryKey⟩, none⟩ keys) ::
          if target.paranoid then [.test (.alive baseAlias)] else []) := by
    rw [rowConditions]
    simp only [Filter.predicate, Text.split_of_notMem hdot, pathPredicate, hpredicate]
    rfl
  exact Outcome.bind_eq_ok.2 ⟨target, Catalog.find_of_find? hfind, Outcome.bind_eq_ok.2 ⟨_, hvalues,
    Outcome.bind_eq_ok.2 ⟨_, hconditions, rfl⟩⟩⟩

/-! ## Every statement can be made -/

namespace Catalog

open Dialogue

variable {k : Catalog} {collection : String} {values : Record}

theorem finishes_insertItem (h : ∃ s, insertRow k collection values = .ok s) :
    (k.insertItem collection values).Finishes := by
  obtain ⟨s, hs⟩ := h
  refine finishes_lift_bind hs (finishes_execute_bind fun rows hrows => ?_)
  cases hfirst : Row.first? rows with
  | none => exact finishes_pure _
  | some row =>
      obtain ⟨hhead, -⟩ := Option.filter_eq_some_iff.1 hfirst
      obtain ⟨key, hkey⟩ := hrows row (List.mem_of_mem_head? hhead)
      show (liftM (row.cell 0) : Dialogue Value).Finishes
      rw [hkey]
      exact finishes_pure key

theorem finishes_updateItems {f : Filter} {relConditions : Named Filter} {s : Change}
    (h : updateRows k collection f values relConditions = .ok s) :
    (k.updateItems collection f values relConditions).Finishes := by
  refine finishes_lift_bind h (finishes_execute_bind fun rows hrows => ?_)
  obtain ⟨keys, hkeys⟩ := hrows.exists_keys
  rw [hkeys]
  exact finishes_pure keys

theorem finishes_linkItems {r : Relation} {source : Value} {targets : List Value} {s : Change}
    (h : linkRows r source targets = .ok s) : (linkItems r source targets).Finishes :=
  finishes_lift_bind h (finishes_execute_bind fun _ _ => finishes_pure ())

end Catalog

namespace Payload

open Dialogue

variable {k : Catalog} {related : List RelatedWrite} {values : Record} {target column : String}
  {key : Value} {rows : List Record}

theorem finishes_writeToOne (h : ∀ w ∈ related, w.Ready k) :
    (writeToOne k related values).Finishes := by
  induction related generalizing values with
  | nil => exact finishes_pure values
  | cons w rest ih =>
      obtain ⟨hw, hrest⟩ := List.forall_mem_cons.1 h
      cases hfirst : w.first? with
      | none =>
          rw [writeToOne_cons_of_none hfirst]
          exact ih hrest
      | some row =>
          obtain ⟨⟨column, hcolumn⟩, hs⟩ := hw row hfirst
          rw [(writeToOne_cons_of_some hfirst).2 column hcolumn]
          exact (Catalog.finishes_insertItem hs).bind fun key => ih hrest

theorem finishes_insertOwned
    (h : ∀ row ∈ rows, ∃ s, insertRow k target (row.insert column key) = .ok s) :
    (insertOwned k target column key rows).Finishes := by
  induction rows with
  | nil => exact finishes_pure ()
  | cons row rest ih =>
      obtain ⟨hrow, hrest⟩ := List.forall_mem_cons.1 h
      exact (Catalog.finishes_insertItem hrow).bind fun _ => ih hrest

theorem finishes_insertAll (h : ∀ row ∈ rows, ∃ s, insertRow k target row = .ok s) :
    (insertAll k target rows).Finishes := by
  induction rows with
  | nil => exact finishes_pure []
  | cons row rest ih =>
      obtain ⟨hrow, hrest⟩ := List.forall_mem_cons.1 h
      exact (Catalog.finishes_insertItem hrow).bind fun key => (ih hrest).bind fun keys =>
        finishes_pure (key :: keys)

end Payload

namespace Payload

open Dialogue

variable {k : Catalog} {w : RelatedWrite} {target : Collection} {key : Value}
  {related : List RelatedWrite}

theorem finishes_writeOneToMany (htarget : k.find? w.relation.target = some target)
    (hkey : w.targetKey = target.primaryKey) (htype : w.relation.type = .oneToMany)
    {column : String} (hcolumn : w.relation.foreignKey = some column) (hw : w.Storable k target) :
    (writeOneToMany k w key).Finishes := by
  have hplain := hw.column htype column hcolumn
  simp only [writeOneToMany, hcolumn]
  refine (finishes_insertOwned fun row hrow =>
    exists_insertRow htarget ((hw.rows row hrow).insert hplain key)).bind fun _ => ?_
  by_cases hkeys : w.keys = []
  · rw [if_pos (List.isEmpty_iff.2 hkeys)]
    exact finishes_pure ()
  · rw [if_neg (mt List.isEmpty_iff.1 hkeys)]
    obtain ⟨hfield, hdot⟩ := hw.linked htype hkeys
    obtain ⟨written, hwritten⟩ := Collection.exists_written_iff.2 fun hgeometry =>
      absurd hgeometry hplain
    rw [hkey]
    exact (Catalog.finishes_updateItems
      (updateRows_listed htarget hkeys hfield hdot hwritten)).bind fun _ => finishes_pure ()

theorem finishes_writeManyToMany (htarget : k.find? w.relation.target = some target)
    (htype : w.relation.type = .manyToMany) (hkeyed : w.relation.Keyed)
    (hw : w.Storable k target) : (writeManyToMany k w key).Finishes := by
  refine (finishes_insertAll fun row hrow =>
    exists_insertRow htarget (hw.rows row hrow)).bind fun created => ?_
  by_cases hkeys : (w.keys ++ created).isEmpty = true
  · rw [if_pos hkeys]
    exact finishes_pure ()
  · rw [if_neg hkeys]
    have hmem : w.relation.through ∈ w.relation.joinKeys ∧
        w.relation.sourceKey ∈ w.relation.joinKeys ∧
        w.relation.targetKey ∈ w.relation.joinKeys := by
      simp [Relation.joinKeys, htype]
    obtain ⟨table, htable⟩ := exists_joinKey hkeyed hmem.1
    obtain ⟨source, hsource⟩ := exists_joinKey hkeyed hmem.2.1
    obtain ⟨column, hcolumn⟩ := exists_joinKey hkeyed hmem.2.2
    exact Catalog.finishes_linkItems (Outcome.bind_eq_ok.2 ⟨source, hsource,
      Outcome.bind_eq_ok.2 ⟨column, hcolumn, Outcome.bind_eq_ok.2 ⟨table, htable, rfl⟩⟩⟩)

end Payload

end Warden
