import Warden.Item.Writing
import Warden.Proofs.Database.Dialogue
import Warden.Proofs.Named

/-! # Items in front of a row

What is sent behind a relation to one row is created in front of the item itself, and its key goes
into a column of the item's row. **`Payload.withKeys`** is what the row holds once the keys are
known: the values of the payload with a key in each of **`Payload.keyColumns`**, whatever stood
there before.

* `exists_keys_of_run`: the row holds nothing else, whatever the database replies.
* `run_replying`: every list of keys is what some database replies. -/

namespace Warden

/-! ## Keys in a row -/

namespace RelatedWrite

/-- The item that is created in front of the row. -/
def first? (w : RelatedWrite) : Option Record :=
  if w.relation.isToOne then w.rows.head? else none

/-- The column of the row that gets the key of that item. -/
def keyColumn? (w : RelatedWrite) : Option String :=
  w.first?.bind fun _ => w.relation.foreignKey

/-- Only for a relation to one row an item is created in front of the row, one that was sent. -/
theorem of_first? {w : RelatedWrite} {row : Record} (h : w.first? = some row) :
    w.relation.isToOne = true ∧ row ∈ w.rows := by
  rw [first?] at h
  split at h
  case isTrue hone => exact ⟨hone, List.mem_of_mem_head? h⟩
  case isFalse => cases h

/-- If an item is created in front of the row, there is a column for its key, and the statement that
adds it can be made. -/
def Ready (k : Catalog) (w : RelatedWrite) : Prop :=
  ∀ row, w.first? = some row →
    (∃ column, w.relation.foreignKey = some column) ∧
      ∃ s, Sql.insertRow k w.relation.target row = .ok s

end RelatedWrite

namespace Payload

/-- The columns for the keys of the items in front of the row, in order. -/
def keyColumns (related : List RelatedWrite) : List String :=
  related.filterMap RelatedWrite.keyColumn?

/-- The values of the row, once the items in front of it have these keys. -/
def withKeys (p : Payload) (keys : List Value) : Record :=
  p.values.putAll ((keyColumns p.related).zip keys)

variable {p : Payload} {keys : List Value}

theorem names_zip_subset {columns : List String} {name : String}
    (h : name ∈ Named.names (columns.zip keys)) : name ∈ columns := by
  obtain ⟨⟨column, key⟩, hmem, rfl⟩ := List.mem_map.1 h
  exact (List.of_mem_zip hmem).1

/-- Columns that get no key keep the value of the payload. -/
theorem find?_withKeys {name : String} (h : name ∉ keyColumns p.related) :
    (p.withKeys keys).find? name = p.values.find? name :=
  Named.find?_putAll_of_notMem _ fun hname => h (names_zip_subset hname)

variable {k : Catalog} {w : RelatedWrite} {rest related : List RelatedWrite} {values : Record}

theorem keyColumns_cons_of_none (h : w.first? = none) :
    keyColumns (w :: rest) = keyColumns rest := by
  rw [keyColumns, List.filterMap_cons, RelatedWrite.keyColumn?, h]
  rfl

theorem keyColumns_cons_of_some {row : Record} {column : String} (h : w.first? = some row)
    (hc : w.relation.foreignKey = some column) :
    keyColumns (w :: rest) = column :: keyColumns rest := by
  rw [keyColumns, List.filterMap_cons, RelatedWrite.keyColumn?, h, Option.bind_some, hc]
  rfl

/-! ## Writing the items in front of a row -/

theorem writeToOne_cons_of_none (h : w.first? = none) :
    writeToOne k (w :: rest) values = writeToOne k rest values := by
  unfold RelatedWrite.first? at h
  rw [writeToOne]
  cases hone : w.relation.isToOne with
  | false => rfl
  | true =>
      rw [hone, if_pos rfl, List.head?_eq_none_iff] at h
      rw [h]

/-- An item in front of the row needs a column for its key. -/
theorem writeToOne_cons_of_some {row : Record} (h : w.first? = some row) :
    (w.relation.foreignKey = none → writeToOne k (w :: rest) values =
      liftM (refuse (α := Record) (.relationWithoutForeignKey w.relation.name))) ∧
    ∀ column, w.relation.foreignKey = some column → writeToOne k (w :: rest) values =
      k.insertItem w.relation.target row >>= fun key =>
        writeToOne k rest (values.insert column key) := by
  unfold RelatedWrite.first? at h
  rw [writeToOne]
  cases hone : w.relation.isToOne with
  | false => simp [hone] at h
  | true =>
      rw [hone, if_pos rfl] at h
      obtain ⟨rows, hrows⟩ := List.head?_eq_some_iff.1 h
      constructor
      · intro hc
        rw [hrows, hc]
      · intro column hc
        rw [hrows, hc]

/-- **The row holds the values of the payload and the keys of the items in front of it**, whatever
the database replies, and all of those items could be added. -/
theorem exists_keys_of_run {db : Database} {past after : List Command} {V : Record}
    (h : (writeToOne k related values).run db past = (after, .ok V)) :
    (∀ w ∈ related, w.Ready k) ∧
      ∃ keys, keys.length = (keyColumns related).length ∧
        V = values.putAll ((keyColumns related).zip keys) := by
  -- each item in front of the row takes one key, and the values so far hold the keys before it
  induction related generalizing values past with
  | nil =>
      cases h
      exact ⟨by simp, [], rfl, rfl⟩
  | cons w rest ih =>
      cases hw : w.first? with
      | none =>
          rw [writeToOne_cons_of_none hw] at h
          obtain ⟨hready, hkeys⟩ := ih h
          rw [keyColumns_cons_of_none hw]
          refine ⟨List.forall_mem_cons.2 ⟨fun row hrow => ?_, hready⟩, hkeys⟩
          rw [hw] at hrow
          cases hrow
      | some row =>
          cases hc : w.relation.foreignKey with
          | none =>
              rw [(writeToOne_cons_of_some hw).1 hc, Dialogue.run_lift] at h
              exact absurd (Prod.mk.inj h).2 (Outcome.refuse_ne_ok _ _)
          | some column =>
              rw [(writeToOne_cons_of_some hw).2 column hc] at h
              obtain ⟨between, key, hkey, h⟩ := Dialogue.run_bind_eq_ok.1 h
              obtain ⟨hready, keys, hlen, rfl⟩ := ih h
              rw [keyColumns_cons_of_some hw hc]
              refine ⟨List.forall_mem_cons.2 ⟨fun row' hrow => ?_, hready⟩, key :: keys, ?_, rfl⟩
              · cases hw.symm.trans hrow
                exact ⟨⟨column, hc⟩, Catalog.exists_insertRow_of_run hkey⟩
              · rw [List.length_cons, List.length_cons, hlen]

end Payload

/-! ## Every key can come -/

/-- The database that replies to each command with one of the keys, in order. -/
def Database.replying (keys : List Value) : Database :=
  fun past _ => some [.tuple [(keys.drop past.length).headD .null]]

namespace Payload

variable {k : Catalog} {related : List RelatedWrite}

/-- Whatever the keys, the items in front of the row are given them by some database. -/
theorem run_replying (hready : ∀ w ∈ related, w.Ready k) {all keys : List Value}
    {past : List Command} (hall : all.drop past.length = keys)
    (hlen : keys.length = (keyColumns related).length) (values : Record) :
    ∃ after, (writeToOne k related values).run (Database.replying all) past =
      (after, .ok (values.putAll ((keyColumns related).zip keys))) := by
  induction related generalizing values past keys with
  | nil => exact ⟨past, rfl⟩
  | cons w rest ih =>
      obtain ⟨hw', hrest⟩ := List.forall_mem_cons.1 hready
      cases hw : w.first? with
      | none =>
          rw [keyColumns_cons_of_none hw] at hlen ⊢
          rw [writeToOne_cons_of_none hw]
          exact ih hrest hall hlen values
      | some row =>
          obtain ⟨⟨column, hc⟩, s, hs⟩ := hw' row hw
          rw [keyColumns_cons_of_some hw hc] at hlen ⊢
          cases keys with
          | nil => cases hlen
          | cons key keys =>
              -- the reply depends on how much was said, and so do the keys that are left
              have hreply : Database.replying all past (.execute (.change s)) =
                  some [.tuple [key]] := by
                rw [Database.replying, hall]
                rfl
              have hnext : all.drop (Command.execute (.change s) :: past).length = keys := by
                rw [List.length_cons, ← List.tail_drop, hall, List.tail_cons]
              rw [(writeToOne_cons_of_some hw).2 column hc,
                Dialogue.run_bind_of_ok _ (Catalog.run_insertItem_of_reply hs hreply)]
              exact ih hrest hnext (Nat.succ.inj hlen) _

end Payload

end Warden
