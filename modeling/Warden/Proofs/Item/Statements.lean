import Warden.Item.Reading
import Warden.Proofs.Database.Keeping
import Warden.Proofs.Item.Writing

/-! # The statements of operations on one item

Whatever the database replies, reading an item executes the statements of its plan and no others
(`reads_of_says_readItem`), and deleting one the statement for the rows that may be reached
(`deletes_of_says_deleteItem`).

Creating an item and changing one execute a statement for the item's own row and those that write
behind relations, **`RelatedWrite.Issues`** (`issues_of_says_createItem`,
`issues_of_says_updateItem`). -/

namespace Warden

/-! ## Reading -/

/-- The statement reads the rows of the plan or their number. -/
def Plan.Reads (p : Plan) (k : Catalog) (s : Statement) : Prop :=
  (∃ q, p.select k = .ok q ∧ s = .select q) ∨ ∃ q, p.count k = .ok q ∧ s = .count q

theorem Plan.reads_of_says {p : Plan} {k : Catalog} {s : Statement}
    (h : Dialogue.Says (.execute s) (p.read k)) : p.Reads k s := by
  rw [Plan.read] at h
  obtain ⟨select, hselect, h⟩ := Dialogue.says_lift_bind.1 h
  obtain ⟨count, hcount, h⟩ := Dialogue.says_lift_bind.1 h
  rcases Dialogue.says_bind h with h | ⟨rows, h⟩
  · exact .inl ⟨select, hselect, Dialogue.says_execute h⟩
  · rcases Dialogue.says_bind h with h | ⟨counted, h⟩
    · exact .inr ⟨count, hcount, Dialogue.says_execute h⟩
    · obtain ⟨_, -, h⟩ := Dialogue.says_lift_bind.1 h
      exact absurd h (Dialogue.not_says_done _)

namespace Context

variable {x : Context} {collection key : String} {s : Statement}

/-- Reading an item executes the statements of its plan. -/
theorem reads_of_says_readItem {fields : Option (List String)}
    (h : Dialogue.Says (.execute s) (x.readItem collection key fields)) :
    ∃ grant c p, x.grant collection .read = .ok grant ∧ x.catalog.find collection = .ok c ∧
      x.itemPlan grant c key fields = .ok p ∧ p.Reads x.catalog s := by
  rw [readItem] at h
  obtain ⟨grant, hgrant, h⟩ := Dialogue.says_lift_bind.1 h
  obtain ⟨c, hc, h⟩ := Dialogue.says_lift_bind.1 h
  obtain ⟨p, hp, h⟩ := Dialogue.says_lift_bind.1 h
  refine ⟨grant, c, p, hgrant, hc, hp, ?_⟩
  refine Plan.reads_of_says (Dialogue.says_of_transaction (Dialogue.says_bind_of_silent ?_ h))
  intro (rows, _) h
  obtain ⟨visible, -, h⟩ := Dialogue.says_lift_bind.1 h
  cases visible with
  | nil => exact Dialogue.not_says_done _ h
  | cons row rest => exact Dialogue.not_says_done _ h

/-! ## Deleting -/

/-- Deleting an item executes the statement that deletes the rows it may reach. -/
theorem deletes_of_says_deleteItem (h : Dialogue.Says (.execute s) (x.deleteItem collection key)) :
    ∃ grant c security change, x.grant collection .delete = .ok grant ∧
      x.catalog.find collection = .ok c ∧
      grant.rowSecurity c x.resolver (.text key) = .ok security ∧
      Sql.deleteRows x.catalog collection security.filter security.relConditions = .ok change ∧
      s = .change change := by
  rw [deleteItem] at h
  obtain ⟨grant, hgrant, h⟩ := Dialogue.says_lift_bind.1 h
  obtain ⟨c, hc, h⟩ := Dialogue.says_lift_bind.1 h
  obtain ⟨security, hsecurity, h⟩ := Dialogue.says_lift_bind.1 h
  have hdelete : Dialogue.Says (.execute s)
      (x.catalog.deleteItems collection security.filter security.relConditions) := by
    refine Dialogue.says_of_transaction (Dialogue.says_bind_of_silent ?_ h)
    intro deleted h
    split at h <;> exact Dialogue.not_says_done _ h
  obtain ⟨change, hchange, h⟩ := Dialogue.says_lift_bind.1 hdelete
  refine ⟨grant, c, security, change, hgrant, hc, hsecurity, hchange, Dialogue.says_execute ?_⟩
  exact Dialogue.says_bind_of_silent (fun _ => Dialogue.not_says_done _) h

/-- A change is one of the rows with the key under the grant. -/
theorem security_of_change {data : Record} {r : RowChange}
    (h : x.change collection key data = .ok r) :
    ∃ grant, x.grant collection .update = .ok grant ∧
      x.catalog.find collection = .ok r.collection ∧
      grant.rowSecurity r.collection x.resolver (.text key) = .ok r.security := by
  simp only [change, Outcome.bind_eq_ok] at h
  obtain ⟨grant, hgrant, c, hc, h⟩ := h
  split at h
  · obtain ⟨_, hrefused, -⟩ := Outcome.bind_eq_ok.1 h
    exact absurd hrefused (Outcome.refuse_ne_ok _ _)
  · simp only [Outcome.bind_eq_ok, Outcome.pure_eq_ok] at h
    obtain ⟨security, hsecurity, payload, -, rfl⟩ := h
    exact ⟨grant, hgrant, hc, hsecurity⟩

end Context

/-! ## Writing behind relations -/

open Dialogue Sql

/-- The statement is one of those that write what was sent behind a relation. -/
inductive RelatedWrite.Issues (k : Catalog) (w : RelatedWrite) : Statement → Prop where
  /-- It adds a row as it was sent. -/
  | add {row : Record} {s : Change} (hrow : row ∈ w.rows) (htype : w.relation.type ≠ .oneToMany)
      (hs : insertRow k w.relation.target row = .ok s) : Issues k w (.change s)
  /-- It adds a row that holds the key of the item. -/
  | addOwned {row : Record} {s : Change} {column : String} (key : Value) (hrow : row ∈ w.rows)
      (hcolumn : w.relation.foreignKey = some column)
      (hs : insertRow k w.relation.target (row.insert column key) = .ok s) : Issues k w (.change s)
  /-- It gives the key of the item to the rows whose keys were sent. -/
  | adopt {s : Change} {column : String} (key : Value)
      (hcolumn : w.relation.foreignKey = some column)
      (hs : updateRows k w.relation.target (.leaf ⟨w.targetKey, .isIn, .list w.keys, none⟩)
        [(column, key)] [] = .ok s) : Issues k w (.change s)
  /-- It links the item through the joining table. -/
  | link {s : Change} (source : Value) (targets : List Value)
      (hs : linkRows w.relation source targets = .ok s) : Issues k w (.change s)

theorem Relation.type_ne_of_isToOne {r : Relation} (h : r.isToOne = true) :
    r.type ≠ .oneToMany := by
  intro htype
  rw [isToOne, htype] at h
  cases h

variable {k : Catalog} {Q : Statement → Prop}

namespace Catalog

variable {collection : String} {values : Record}

theorem keeps_insertItem (h : ∀ s, insertRow k collection values = .ok s → Q (.change s)) :
    (k.insertItem collection values).Keeps Q fun _ =>
      ∃ s, insertRow k collection values = .ok s := by
  refine keeps_lift_bind fun s hs => (keeps_execute (h s hs)).bind fun rows _ => ?_
  cases Row.first? rows with
  | none => exact .ok _ ⟨s, hs⟩
  | some r => exact keeps_lift fun _ _ => ⟨s, hs⟩

theorem keeps_updateItems {f : Filter} {relConditions : Named Filter}
    (h : ∀ s, updateRows k collection f values relConditions = .ok s → Q (.change s)) :
    (k.updateItems collection f values relConditions).Keeps Q fun _ => True := by
  refine keeps_lift_bind fun s hs => (keeps_execute (h s hs)).bind fun rows _ => ?_
  exact keeps_lift fun _ _ => trivial

theorem keeps_linkItems {r : Relation} {source : Value} {targets : List Value}
    (h : ∀ s, linkRows r source targets = .ok s → Q (.change s)) :
    (linkItems r source targets).Keeps Q fun _ => True :=
  keeps_lift_bind fun s hs => (keeps_execute (h s hs)).bind fun _ _ => .ok _ trivial

end Catalog

namespace Payload

variable {w : RelatedWrite} {related : List RelatedWrite} {key : Value}

/-- The statements in front of a row are among those behind relations to one row. -/
theorem keeps_writeToOne (h : ∀ w ∈ related, ∀ s, w.Issues k s → Q s) (values : Record) :
    (writeToOne k related values).Keeps Q fun stored => (∀ w ∈ related, w.Ready k) ∧
      ∃ keys, keys.length = (keyColumns related).length ∧
        stored = values.putAll ((keyColumns related).zip keys) := by
  induction related generalizing values with
  | nil => exact .ok _ ⟨List.forall_mem_nil _, [], rfl, rfl⟩
  | cons w rest ih =>
      obtain ⟨hw, hrest⟩ := List.forall_mem_cons.1 h
      cases hfirst : w.first? with
      | none =>
          rw [writeToOne_cons_of_none hfirst, keyColumns_cons_of_none hfirst]
          refine (ih hrest values).mono fun stored ⟨hready, hstored⟩ => ⟨?_, hstored⟩
          refine List.forall_mem_cons.2 ⟨fun row hrow => ?_, hready⟩
          cases hfirst.symm.trans hrow
      | some row =>
          obtain ⟨hone, hrow⟩ := RelatedWrite.of_first? hfirst
          cases hcolumn : w.relation.foreignKey with
          | none =>
              rw [(writeToOne_cons_of_some hfirst).1 hcolumn]
              exact .error _
          | some column =>
              rw [(writeToOne_cons_of_some hfirst).2 column hcolumn,
                keyColumns_cons_of_some hfirst hcolumn]
              have htype := Relation.type_ne_of_isToOne hone
              refine (Catalog.keeps_insertItem fun s hs => hw _ (.add hrow htype hs)).bind
                fun key hs => (ih hrest _).mono ?_
              rintro stored ⟨hready, keys, hlength, rfl⟩
              refine ⟨List.forall_mem_cons.2 ⟨fun row' hrow' => ?_, hready⟩, key :: keys, ?_, rfl⟩
              · cases hfirst.symm.trans hrow'
                exact ⟨⟨column, hcolumn⟩, hs⟩
              · rw [List.length_cons, List.length_cons, hlength]

theorem keeps_insertOwned {column : String} (hcolumn : w.relation.foreignKey = some column)
    (h : ∀ s, w.Issues k s → Q s) {rows : List Record} (hrows : ∀ row ∈ rows, row ∈ w.rows) :
    (insertOwned k w.relation.target column key rows).Keeps Q fun _ => True := by
  induction rows with
  | nil => exact .ok _ trivial
  | cons row rows ih =>
      obtain ⟨hrow, hrows⟩ := List.forall_mem_cons.1 hrows
      exact (Catalog.keeps_insertItem fun s hs => h _ (.addOwned key hrow hcolumn hs)).bind
        fun _ _ => ih hrows

theorem keeps_insertAll (htype : w.relation.type ≠ .oneToMany) (h : ∀ s, w.Issues k s → Q s)
    {rows : List Record} (hrows : ∀ row ∈ rows, row ∈ w.rows) :
    (insertAll k w.relation.target rows).Keeps Q fun _ => True := by
  induction rows with
  | nil => exact .ok _ trivial
  | cons row rows ih =>
      obtain ⟨hrow, hrows⟩ := List.forall_mem_cons.1 hrows
      refine (Catalog.keeps_insertItem fun s hs => h _ (.add hrow htype hs)).bind fun _ _ => ?_
      exact (ih hrows).bind fun _ _ => .ok _ trivial

theorem keeps_writeOneToMany (h : ∀ s, w.Issues k s → Q s) :
    (writeOneToMany k w key).Keeps Q fun _ => True := by
  rw [writeOneToMany]
  cases hcolumn : w.relation.foreignKey with
  | none => exact .error _
  | some column =>
      refine (keeps_insertOwned hcolumn h fun _ hrow => hrow).bind fun _ _ => ?_
      split
      · exact .ok _ trivial
      · exact (Catalog.keeps_updateItems fun s hs => h _ (.adopt key hcolumn hs)).bind
          fun _ _ => .ok _ trivial

theorem keeps_writeManyToMany (htype : w.relation.type ≠ .oneToMany)
    (h : ∀ s, w.Issues k s → Q s) : (writeManyToMany k w key).Keeps Q fun _ => True := by
  refine (keeps_insertAll htype h fun _ hrow => hrow).bind fun created _ => ?_
  simp only
  split
  · exact .ok _ trivial
  · exact Catalog.keeps_linkItems fun s hs => h _ (.link _ _ hs)

/-- The statements behind a row are among those behind relations to many rows. -/
theorem keeps_writeToMany (h : ∀ w ∈ related, ∀ s, w.Issues k s → Q s) :
    (writeToMany k key related).Keeps Q fun _ => True := by
  induction related with
  | nil => exact .ok _ trivial
  | cons w rest ih =>
      obtain ⟨hw, hrest⟩ := List.forall_mem_cons.1 h
      rw [writeToMany]
      cases htype : w.relation.type with
      | oneToMany => exact (keeps_writeOneToMany hw).bind fun _ _ => ih hrest
      | manyToMany =>
          have hmany : w.relation.type ≠ .oneToMany := by simp [htype]
          exact (keeps_writeManyToMany hmany hw).bind fun _ _ => ih hrest
      | manyToOne | oneToOne => exact ih hrest

end Payload

/-! ## Writing -/

/-- The statement is one of those that create an item with the payload: it adds the item's own row,
or it writes behind a relation. -/
def Payload.Issues (k : Catalog) (collection : String) (p : Payload) (s : Statement) : Prop :=
  (∃ values change, p.Stores k values ∧ insertRow k collection values = .ok change ∧
    s = .change change) ∨ ∃ w ∈ p.related, w.Issues k s

namespace Context

/-- The statement is one of those that change the item with the key: it changes the item's own row,
or it writes behind a relation. -/
def RowChange.Issues (k : Catalog) (collection key : String) (r : RowChange) (s : Statement) :
    Prop :=
  (∃ stored change, r.payload.Stores k stored ∧
    updateRows k collection r.security.filter
      (updatedValues r.collection (.text key) stored) r.security.relConditions = .ok change ∧
    s = .change change) ∨ ∃ w ∈ r.payload.related, w.Issues k s

variable {x : Context} {collection key : String} {s : Statement}

/-- Creating an item executes statements of its payload. -/
theorem issues_of_says_createItem {data : Value}
    (h : Says (.execute s) (x.createItem collection data)) :
    ∃ p, x.creation collection data = .ok p ∧ p.Issues x.catalog collection s := by
  obtain ⟨p, hp, h⟩ := says_lift_bind.1 h
  refine ⟨p, hp, ?_⟩
  have hrelated : ∀ w ∈ p.related, ∀ s, w.Issues x.catalog s → p.Issues x.catalog collection s :=
    fun w hw s hs => .inr ⟨w, hw, hs⟩
  refine Keeps.of_says ((Payload.keeps_writeToOne hrelated p.values).bind (S := fun _ => True) ?_)
    (says_of_transaction h)
  rintro values ⟨hready, hkeys⟩
  exact (Catalog.keeps_insertItem fun change hchange =>
      .inl ⟨values, change, ⟨hready, hkeys⟩, hchange, rfl⟩).bind
    fun _ _ => (Payload.keeps_writeToMany hrelated).bind fun _ _ => .ok _ trivial

/-- Changing an item executes statements of its change. -/
theorem issues_of_says_updateItem {data : Record}
    (h : Says (.execute s) (x.updateItem collection key data)) :
    ∃ r, x.change collection key data = .ok r ∧ r.Issues x.catalog collection key s := by
  obtain ⟨r, hr, h⟩ := says_lift_bind.1 h
  refine ⟨r, hr, ?_⟩
  have hrelated : ∀ w ∈ r.payload.related, ∀ s, w.Issues x.catalog s →
      r.Issues x.catalog collection key s :=
    fun w hw s hs => .inr ⟨w, hw, hs⟩
  refine Keeps.of_says ((Payload.keeps_writeToOne hrelated r.payload.values).bind
    (S := fun _ => True) ?_) (says_of_transaction h)
  rintro stored ⟨hready, hkeys⟩
  refine (Catalog.keeps_updateItems fun change hchange =>
    .inl ⟨stored, change, ⟨hready, hkeys⟩, hchange, rfl⟩).bind fun keys _ => ?_
  cases keys with
  | nil => exact .error _
  | cons written keys => exact (Payload.keeps_writeToMany hrelated).bind fun _ _ => .ok _ trivial

end Context

end Warden
