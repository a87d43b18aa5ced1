import Warden.Proofs.Item.ToOne
import Warden.Proofs.Sample

/-! # Values of written rows

**`Context.AddsRow`** says of one run of creating an item, with one database, that the statement for
the item's own row is executed and which values the row gets; **`Context.ChangesRow`** says the same
of changing an item. Over all databases these are the values of the payload with any keys at all in
the columns for the items in front of the row, as long as the statements can be made
(`exists_addsRow_iff`, `exists_changesRow_iff`). -/

namespace Warden

/-! ## What a row can get -/

namespace Payload

variable {k : Catalog} {p : Payload} {values : Record}

/-- The row of a payload can get the values: they are those of the payload with some keys, and the
items that have these keys can be added. -/
structure Stores (k : Catalog) (p : Payload) (values : Record) : Prop where
  /-- The items in front of the row can be added. -/
  ready : ∀ w ∈ p.related, w.Ready k
  /-- The values are those of the payload with the keys of these items. -/
  keys : ∃ keys, keys.length = (keyColumns p.related).length ∧ values = p.withKeys keys

/-- What the items in front of the row leave is something that the row can get. -/
theorem stores_of_run {db : Database} {past after : List Command}
    (h : (writeToOne k p.related p.values).run db past = (after, .ok values)) :
    p.Stores k values := by
  obtain ⟨hready, hkeys⟩ := exists_keys_of_run h
  exact ⟨hready, hkeys⟩

/-- What a row can get, it gets with some database, if what follows begins with the statement for
the row. -/
theorem Stores.exists_executed {α : Type} {s : Statement} (h : p.Stores k values)
    (next : Record → Dialogue α)
    (hnext : ∀ db past, (.execute s :: past) <:+ ((next values).run db past).1) :
    ∃ db past before,
      (writeToOne k p.related p.values).run db (.connect :: past) = (before, .ok values) ∧
      (.execute s :: before) <:+
        ((Dialogue.transaction (writeToOne k p.related p.values >>= next)).run db past).1 := by
  obtain ⟨keys, hlen, rfl⟩ := h.keys
  -- the connection is the first thing that is asked for
  have hall : (Value.null :: keys).drop [Command.connect].length = keys := rfl
  obtain ⟨before, hbefore⟩ := run_replying h.ready hall hlen p.values
  refine ⟨Database.replying (.null :: keys), [], before, hbefore, ?_⟩
  refine .trans ?_ (Dialogue.suffix_run_transaction _ rfl)
  rw [Dialogue.run_bind_of_ok _ hbefore]
  exact hnext _ _

/-- The row of a post that is written together with a new author can get any key of an author. -/
theorem stores_authored (values : Record) (key : Value) :
    (Sample.authored values).Stores Sample.reader.catalog (values.insert "author_id" key) := by
  refine ⟨fun w hw row hrow => ?_, [key], rfl, rfl⟩
  obtain rfl := List.mem_singleton.1 hw
  cases hrow
  exact ⟨⟨"author_id", rfl⟩, _, rfl⟩

end Payload

namespace Context

variable {x : Context} {collection : String} {values : Record} {p : Payload}

/-! ## Adding a row -/

/-- What is written for a new item is a payload whose values have passed the check. -/
theorem creation_eq_ok {data : Value} :
    x.creation collection data = .ok p ↔
      ∃ grant c, x.grant collection .create = .ok grant ∧ x.catalog.find collection = .ok c ∧
        Payload.prepare x.catalog c grant x.resolver data = .ok p ∧
        x.checkCreation grant p.values = .ok () := by
  simp only [creation, Outcome.bind_eq_ok, Outcome.pure_eq_ok]
  constructor
  · rintro ⟨grant, hgrant, c, hc, q, hq, _, hcheck, rfl⟩
    exact ⟨grant, c, hgrant, hc, hq, hcheck⟩
  · rintro ⟨grant, c, hgrant, hc, hp, hcheck⟩
    exact ⟨grant, hgrant, c, hc, p, hp, (), hcheck, rfl⟩

/-- In a run of creating an item, the statement that adds the item's own row is executed, after the
items in front of it, and these are the values of the row. -/
def AddsRow (x : Context) (collection : String) (data : Value) (db : Database)
    (past : List Command) (values : Record) : Prop :=
  ∃ p before s, x.creation collection data = .ok p ∧
    (Payload.writeToOne x.catalog p.related p.values).run db (.connect :: past) =
      (before, .ok values) ∧
    Sql.insertRow x.catalog collection values = .ok s ∧
    (.execute (.change s) :: before) <:+ ((x.createItem collection data).run db past).1

theorem run_createItem {data : Value} (h : x.creation collection data = .ok p) (db : Database)
    (past : List Command) :
    (x.createItem collection data).run db past =
      (Dialogue.transaction (Payload.writeToOne x.catalog p.related p.values >>=
        x.addRow collection p)).run db past := by
  rw [createItem, h]
  rfl

/-- **The values of added rows**, over all databases, are those that the row of the payload can get
and that can be written. -/
theorem exists_addsRow_iff {data : Value} (hp : x.creation collection data = .ok p) :
    (∃ db past, x.AddsRow collection data db past values) ↔
      p.Stores x.catalog values ∧ ∃ s, Sql.insertRow x.catalog collection values = .ok s := by
  constructor
  · rintro ⟨db, past, q, before, s, hq, hrun, hs, -⟩
    cases hp.symm.trans hq
    exact ⟨Payload.stores_of_run hrun, s, hs⟩
  · rintro ⟨hstores, s, hs⟩
    obtain ⟨db, past, before, hrun, hexecuted⟩ :=
      hstores.exists_executed (x.addRow collection p) fun _ _ =>
        (Catalog.suffix_run_insertItem hs).trans (Dialogue.suffix_run_bind _ _)
    refine ⟨db, past, p, before, s, hp, hrun, hs, ?_⟩
    rw [run_createItem hp]
    exact hexecuted

/-! ## Changing a row -/

/-- What is written for an item that is changed is a payload, prepared under the grant. -/
theorem prepare_of_change {key : String} {data : Record} {r : RowChange}
    (h : x.change collection key data = .ok r) :
    ∃ grant, x.grant collection .update = .ok grant ∧
      Payload.prepare x.catalog r.collection grant x.resolver (.record data) = .ok r.payload := by
  simp only [change, Outcome.bind_eq_ok] at h
  obtain ⟨grant, hgrant, c, -, h⟩ := h
  split at h
  · obtain ⟨_, hrefused, -⟩ := Outcome.bind_eq_ok.1 h
    exact absurd hrefused (Outcome.refuse_ne_ok _ _)
  · simp only [Outcome.bind_eq_ok, Outcome.pure_eq_ok] at h
    obtain ⟨security, -, payload, hpayload, rfl⟩ := h
    exact ⟨grant, hgrant, hpayload⟩

/-- In a run of changing an item, the statement that changes the item's own row is executed, after
the items in front of it, and these are the values that the row gets. -/
def ChangesRow (x : Context) (collection key : String) (data : Record) (db : Database)
    (past : List Command) (values : Record) : Prop :=
  ∃ r before stored s, x.change collection key data = .ok r ∧
    (Payload.writeToOne x.catalog r.payload.related r.payload.values).run db (.connect :: past) =
      (before, .ok stored) ∧
    values = updatedValues r.collection (.text key) stored ∧
    Sql.updateRows x.catalog collection r.security.filter values r.security.relConditions = .ok s ∧
    (.execute (.change s) :: before) <:+ ((x.updateItem collection key data).run db past).1

theorem run_updateItem {key : String} {data : Record} {r : RowChange}
    (h : x.change collection key data = .ok r) (db : Database) (past : List Command) :
    (x.updateItem collection key data).run db past =
      (Dialogue.transaction (Payload.writeToOne x.catalog r.payload.related r.payload.values >>=
        fun stored => x.changeRow collection key r
          (updatedValues r.collection (.text key) stored))).run db past := by
  rw [updateItem, h]
  rfl

/-- **The values of changed rows**, over all databases, are those that the row of the payload can
get, or the key alone, and that can be written. -/
theorem exists_changesRow_iff {key : String} {data : Record} {r : RowChange}
    (hr : x.change collection key data = .ok r) :
    (∃ db past, x.ChangesRow collection key data db past values) ↔
      ∃ stored, r.payload.Stores x.catalog stored ∧
        values = updatedValues r.collection (.text key) stored ∧
        ∃ s, Sql.updateRows x.catalog collection r.security.filter values
          r.security.relConditions = .ok s := by
  constructor
  · rintro ⟨db, past, q, before, stored, s, hq, hrun, hvalues, hs, -⟩
    cases hr.symm.trans hq
    exact ⟨stored, Payload.stores_of_run hrun, hvalues, s, hs⟩
  · rintro ⟨stored, hstores, rfl, s, hs⟩
    obtain ⟨db, past, before, hrun, hexecuted⟩ :=
      hstores.exists_executed
        (fun stored => x.changeRow collection key r (updatedValues r.collection (.text key) stored))
        fun _ _ => (Catalog.suffix_run_updateItems hs).trans (Dialogue.suffix_run_bind _ _)
    refine ⟨db, past, r, before, stored, s, hr, hrun, rfl, hs, ?_⟩
    rw [run_updateItem hr]
    exact hexecuted

end Context

end Warden
