import Mathlib.Data.List.Forall2
import Warden.Proofs.Query.Projection
import Warden.Proofs.Value.Equality

/-! # What a projection strips

A row that comes back from the database has rows behind its relations, and these have rows behind
theirs. The projection goes through all of them with the part of the allowlist that applies there.

* **`Catalog.Leads`** follows a path of relations from a row to a row behind it, and
  **`Catalog.HasKey`** asks for a key at the end of such a path. Behind the relations of a path
  stand the projected rows that were there before, each projected by what the allowlist says along
  that path, if it opens it at all (**`leads_projectRow`**).
* **`Catalog.Cut`** says that a row is another one with entries left out, here and behind relations,
  and otherwise the same.
* **`Catalog.Strips`** puts together what is left of a row, and **`projection_strips_once`** says
  that this is what comes of every row, and that it stays so in a second projection. -/

namespace Warden

variable {k : Catalog} {collection target name : String} {a : Allowlist} {row last : Record}
  {path : List String}

/-! ## Rows within values -/

namespace Value

mutual

/-- The rows of a value: the value, if it is one, or those of its items, at any depth. -/
def rows : Value → List Record
  | .record entries => [entries]
  | .list items | .tuple items | .set items => rowsOfAll items
  | _ => []

/-- The rows of several values. -/
def rowsOfAll : List Value → List Record
  | [] => []
  | v :: vs => rows v ++ rowsOfAll vs

end

/-- The rows of an item are among the rows of all items. -/
theorem mem_rowsOfAll {v : Value} {vs : List Value} (hv : v ∈ vs) (h : row ∈ v.rows) :
    row ∈ rowsOfAll vs := by
  induction hv with
  | head => exact List.mem_append_left _ h
  | tail _ _ ih => exact List.mem_append_right _ ih

/-! ### Induction on rows -/

/-- A row has the property once the rows in it do. -/
def Ascends (P : Record → Prop) : Prop :=
  ∀ row, (∀ name v, (name, v) ∈ row → ∀ inner ∈ rows v, P inner) → P row

section Induction

variable {P : Record → Prop}

mutual

/-- The rows of a value have a property that ascends. -/
theorem rows_have (hP : Ascends P) : (v : Value) → ∀ inner ∈ v.rows, P inner
  | .record entries => by
      rw [rows, List.forall_mem_singleton]
      exact hP entries (entries_have hP entries)
  | .list items | .tuple items | .set items => by
      rw [rows]
      exact rowsOfAll_have hP items
  | .null | .bool _ | .int _ | .float _ | .decimal _ | .text _ | .bytes _ | .datetime _ | .date _
  | .time _ | .uuid _ => List.forall_mem_nil P

theorem rowsOfAll_have (hP : Ascends P) : (vs : List Value) → ∀ inner ∈ rowsOfAll vs, P inner
  | [] => List.forall_mem_nil P
  | v :: vs => List.forall_mem_append.2 ⟨rows_have hP v, rowsOfAll_have hP vs⟩

theorem entries_have (hP : Ascends P) :
    (row : List (String × Value)) → ∀ name v, (name, v) ∈ row → ∀ inner ∈ v.rows, P inner
  | [] => fun _ _ hv => absurd hv List.not_mem_nil
  | (other, w) :: row => by
      intro name v hv
      rcases List.mem_cons.1 hv with heq | hv
      · cases heq
        exact rows_have hP w
      · exact entries_have hP row name v hv

end

/-- Every row has a property if each row has it once the rows in it do. -/
@[elab_as_elim]
theorem rows_induction (row : Record)
    (hstep : ∀ row, (∀ name v, (name, v) ∈ row → ∀ inner ∈ v.rows, P inner) → P row) : P row :=
  hstep row (entries_have hstep row)

end Induction

theorem rows_of_isAtom {v : Value} (h : v.isAtom = true) : v.rows = [] := by
  cases v with
  | list | tuple | set | record => cases h
  | _ => rfl

theorem record?_of_isAtom {v : Value} (h : v.isAtom = true) : v.record? = none := by
  cases v with
  | record => cases h
  | _ => rfl

end Value

/-! ## Along the relations of a path -/

namespace Allowlist

/-- Each relation of the path is allowed, behind those before it. -/
def opens (a : Allowlist) : List String → Bool
  | [] => true
  | relation :: rest => a.allowsRelation relation && (a.forRelation relation).opens rest

/-- The allowlist that applies to the rows behind the relations of the path. -/
def along (a : Allowlist) : List String → Allowlist
  | [] => a
  | relation :: rest => (a.forRelation relation).along rest

/-- A field behind relations is allowed iff they are and it is allowed there. -/
theorem allowsSegments_append (a : Allowlist) (path : List String) (field : String) :
    a.allowsSegments (path ++ [field]) = (a.opens path && (a.along path).allowsField field) := by
  induction path generalizing a with
  | nil => rfl
  | cons relation path ih =>
      have hne : path ++ [field] ≠ [] := List.append_ne_nil_of_right_ne_nil _ (List.cons_ne_nil _ _)
      rw [List.cons_append, allowsSegments_cons relation hne, ih, opens, along, Bool.and_assoc]

/-- A relation behind relations is allowed iff they are and it is allowed there. -/
theorem opens_append (a : Allowlist) (path : List String) (relation : String) :
    a.opens (path ++ [relation]) = (a.opens path && (a.along path).allowsRelation relation) := by
  induction path generalizing a with
  | nil => exact Bool.and_true _
  | cons first path ih => rw [List.cons_append, opens, ih, opens, along, Bool.and_assoc]

end Allowlist

namespace Catalog

/-- The path, relation after relation, leads from the row of the collection to the row of the
target. -/
inductive Leads (k : Catalog) : String → Record → List String → String → Record → Prop where
  /-- Without relations it leads nowhere else. -/
  | here {collection : String} {row : Record} : Leads k collection row [] collection row
  /-- Behind the first relation it goes on from one of the rows there. -/
  | behind {collection name target : String} {row inner last : Record} {path : List String}
      {r : Relation} {v : Value} (hr : k.relation? collection name = some r)
      (hv : (name, v) ∈ row) (hinner : inner ∈ v.rows)
      (h : Leads k r.target inner path target last) :
      Leads k collection row (name :: path) target last

/-- A row of the target at the end of the path has the key. -/
def HasKey (k : Catalog) (collection : String) (row : Record) (path : List String)
    (target name : String) : Prop :=
  ∃ last, k.Leads collection row path target last ∧ name ∈ last.names

theorem leads_nil : k.Leads collection row [] target last ↔ target = collection ∧ last = row := by
  constructor
  · rintro ⟨⟩
    exact ⟨rfl, rfl⟩
  · rintro ⟨rfl, rfl⟩
    exact .here

theorem leads_cons : k.Leads collection row (name :: path) target last ↔
    ∃ r v inner, k.relation? collection name = some r ∧ (name, v) ∈ row ∧ inner ∈ v.rows ∧
      k.Leads r.target inner path target last := by
  constructor
  · rintro (_ | ⟨hr, hv, hinner, h⟩)
    exact ⟨_, _, _, hr, hv, hinner, h⟩
  · rintro ⟨r, v, inner, hr, hv, hinner, h⟩
    exact .behind hr hv hinner h

/-! ## Rows with rows behind their relations -/

mutual

/-- Behind every relation of the row is nothing, a scalar, a row, or a list of rows and scalars, and
so it is behind the relations of these rows. -/
def nests (k : Catalog) (collection : String) : List (String × Value) → Bool
  | [] => true
  | (name, v) :: rest =>
    (match k.relation? collection name with
      | none => true
      | some r => k.nestsBehind r.target v) && k.nests collection rest

/-- The value is nothing, a scalar, a row that nests, or a list of such rows and scalars. -/
def nestsBehind (k : Catalog) (target : String) : Value → Bool
  | .record entries => k.nests target entries
  | .list items => k.nestsItems target items
  | v => v.isAtom

/-- Each of the items is a scalar or a row that nests. -/
def nestsItems (k : Catalog) (target : String) : List Value → Bool
  | [] => true
  | .record entries :: vs => k.nests target entries && k.nestsItems target vs
  | v :: vs => v.isAtom && k.nestsItems target vs

end

/-- Behind a relation of a row that nests is what may be there. -/
theorem nestsBehind_of_mem (h : k.nests collection row = true) {v : Value} (hv : (name, v) ∈ row)
    {r : Relation} (hr : k.relation? collection name = some r) :
    k.nestsBehind r.target v = true := by
  induction row with
  | nil => cases hv
  | cons entry row ih =>
      obtain ⟨hentry, hrow⟩ := Bool.and_eq_true_iff.1 (nests.eq_2 .. ▸ h)
      rcases List.mem_cons.1 hv with rfl | hv
      · simpa only [hr] using hentry
      · exact ih hrow hv

/-- What nests behind a relation is nothing, a scalar, a row, or a list. -/
theorem cases_of_nestsBehind {v : Value} (h : k.nestsBehind target v = true) :
    v.isAtom = true ∨ (∃ inner, v = .record inner ∧ k.nests target inner = true) ∨
      ∃ items, v = .list items ∧ k.nestsItems target items = true := by
  cases v with
  | record inner => exact .inr (.inl ⟨inner, rfl, nestsBehind.eq_1 .. ▸ h⟩)
  | list items => exact .inr (.inr ⟨items, rfl, nestsBehind.eq_2 .. ▸ h⟩)
  | tuple | set => cases h
  | _ => exact .inl rfl

theorem nestsItems_cons {v : Value} {vs : List Value} : k.nestsItems target (v :: vs) = true ↔
    (v.isAtom = true ∨ ∃ inner, v = .record inner ∧ k.nests target inner = true) ∧
      k.nestsItems target vs = true := by
  cases v <;> simp [nestsItems, Value.isAtom]

theorem nests_of_mem_rowsOfAll {items : List Value} (h : k.nestsItems target items = true)
    {inner : Record} (hinner : inner ∈ Value.rowsOfAll items) : k.nests target inner = true := by
  induction items with
  | nil => cases hinner
  | cons v items ih =>
      obtain ⟨hv, hitems⟩ := nestsItems_cons.1 h
      rw [Value.rowsOfAll, List.mem_append] at hinner
      refine hinner.elim (fun hinner => ?_) (ih hitems)
      rcases hv with hatom | ⟨row, rfl, hrow⟩
      · rw [Value.rows_of_isAtom hatom] at hinner
        cases hinner
      · rw [Value.rows, List.mem_singleton] at hinner
        rwa [hinner]

/-- The rows of a value behind a relation nest. -/
theorem nests_of_mem_rows {v : Value} (h : k.nestsBehind target v = true) {inner : Record}
    (hinner : inner ∈ v.rows) : k.nests target inner = true := by
  rcases cases_of_nestsBehind h with hatom | ⟨row, rfl, hrow⟩ | ⟨items, rfl, hitems⟩
  · rw [Value.rows_of_isAtom hatom] at hinner
    cases hinner
  · rw [Value.rows, List.mem_singleton] at hinner
    rwa [hinner]
  · rw [Value.rows] at hinner
    exact nests_of_mem_rowsOfAll hitems hinner

/-! ## Projected entries and items -/

/-- What the allowlist shows of an entry, if anything. -/
def shown? (k : Catalog) (collection : String) (a : Allowlist) (entry : String × Value) :
    Option (String × Value) :=
  match k.relation? collection entry.1 with
  | none => if a.allowsField entry.1 then some entry else none
  | some r =>
    if a.allowsRelation entry.1 then
      some (entry.1, k.projectRelated r.target (a.forRelation entry.1) entry.2)
    else none

theorem projectRow_eq_filterMap (row : Record) :
    k.projectRow collection a row = row.filterMap (k.shown? collection a) := by
  induction row with
  | nil => rfl
  | cons entry row ih =>
      obtain ⟨name, v⟩ := entry
      rw [projectRow, List.filterMap_cons, shown?, ih]
      cases k.relation? collection name with
      | none => cases a.allowsField name <;> rfl
      | some r => cases a.allowsRelation name <;> rfl

/-- An entry is shown under its own name. -/
theorem name_of_shown? {entry shown : String × Value}
    (h : k.shown? collection a entry = some shown) : shown.1 = entry.1 := by
  rw [shown?] at h
  split at h
  · obtain ⟨-, heq⟩ := Option.ite_none_right_eq_some.1 h
    rw [Option.some.inj heq]
  · obtain ⟨-, heq⟩ := Option.ite_none_right_eq_some.1 h
    rw [← Option.some.inj heq]

theorem shown?_field (hr : k.relation? collection name = none) (v : Value) :
    k.shown? collection a (name, v) = if a.allowsField name then some (name, v) else none := by
  simp only [shown?, hr]

theorem shown?_relation {r : Relation} (hr : k.relation? collection name = some r) (v : Value) :
    k.shown? collection a (name, v) = if a.allowsRelation name then
      some (name, k.projectRelated r.target (a.forRelation name) v) else none := by
  simp only [shown?, hr]

/-- A field of a row is shown, with its value, iff it is allowed. -/
theorem mem_projectRow_field (hr : k.relation? collection name = none) {v : Value} :
    (name, v) ∈ k.projectRow collection a row ↔ (name, v) ∈ row ∧ a.allowsField name = true := by
  rw [projectRow_eq_filterMap, List.mem_filterMap]
  constructor
  · rintro ⟨⟨other, w⟩, hmem, hshown⟩
    obtain rfl : name = other := name_of_shown? hshown
    rw [shown?_field hr] at hshown
    obtain ⟨hallowed, heq⟩ := Option.ite_none_right_eq_some.1 hshown
    cases heq
    exact ⟨hmem, hallowed⟩
  · rintro ⟨hmem, hallowed⟩
    exact ⟨(name, v), hmem, by rw [shown?_field hr, if_pos hallowed]⟩

/-- A relation of a row is shown, with what is left of its value, iff it is allowed. -/
theorem mem_projectRow_relation {r : Relation} (hr : k.relation? collection name = some r)
    {v : Value} : (name, v) ∈ k.projectRow collection a row ↔ a.allowsRelation name = true ∧
      ∃ w, (name, w) ∈ row ∧ v = k.projectRelated r.target (a.forRelation name) w := by
  rw [projectRow_eq_filterMap, List.mem_filterMap]
  constructor
  · rintro ⟨⟨other, w⟩, hmem, hshown⟩
    obtain rfl : name = other := name_of_shown? hshown
    rw [shown?_relation hr] at hshown
    obtain ⟨hallowed, heq⟩ := Option.ite_none_right_eq_some.1 hshown
    cases heq
    exact ⟨hallowed, w, hmem, rfl⟩
  · rintro ⟨hallowed, w, hmem, rfl⟩
    exact ⟨(name, w), hmem, by rw [shown?_relation hr, if_pos hallowed]⟩

/-- Nothing is stripped from what is neither a row nor a list. -/
theorem projectRelated_of_ne {v : Value} (hrow : v.record? = none)
    (hlist : ∀ items, v ≠ .list items) : k.projectRelated target a v = v := by
  rw [projectRelated]
  · rintro entries rfl
    cases hrow
  · exact hlist

theorem projectRelated_of_isAtom {v : Value} (h : v.isAtom = true) :
    k.projectRelated target a v = v := by
  refine projectRelated_of_ne (Value.record?_of_isAtom h) ?_
  rintro items rfl
  cases h

theorem rowsOfAll_projectItems {items : List Value} (h : k.nestsItems target items = true) :
    Value.rowsOfAll (k.projectItems target a items) =
      (Value.rowsOfAll items).map (k.projectRow target a) := by
  induction items with
  | nil => rfl
  | cons v items ih =>
      obtain ⟨hv, hitems⟩ := nestsItems_cons.1 h
      rcases hv with hatom | ⟨row, rfl, -⟩
      · rw [projectItems_cons_of_record? (Value.record?_of_isAtom hatom), Value.rowsOfAll,
          Value.rowsOfAll, Value.rows_of_isAtom hatom, List.nil_append, List.nil_append, ih hitems]
      · rw [projectItems, Value.rowsOfAll, Value.rowsOfAll, Value.rows, Value.rows, ih hitems,
          List.singleton_append, List.singleton_append, List.map_cons]

/-- The rows of what is left of a value are those that were there, each projected. -/
theorem rows_projectRelated {v : Value} (h : k.nestsBehind target v = true) :
    (k.projectRelated target a v).rows = v.rows.map (k.projectRow target a) := by
  rcases cases_of_nestsBehind h with hatom | ⟨row, rfl, -⟩ | ⟨items, rfl, hitems⟩
  · rw [projectRelated_of_isAtom hatom, Value.rows_of_isAtom hatom, List.map_nil]
  · rw [projectRelated, Value.rows, Value.rows, List.map_singleton]
  · rw [projectRelated, Value.rows, Value.rows, rowsOfAll_projectItems hitems]

/-! ## Behind relations after the projection -/

/-- **A path leads, in what is left of a row, to what is left of the rows to which it led before, if
the allowlist opens it.** -/
theorem leads_projectRow (h : k.nests collection row = true) :
    k.Leads collection (k.projectRow collection a row) path target last ↔
      a.opens path = true ∧ ∃ inner, k.Leads collection row path target inner ∧
        last = k.projectRow target (a.along path) inner := by
  -- behind each relation stands another row, and another allowlist applies
  induction path generalizing collection row a with
  | nil =>
      rw [leads_nil]
      constructor
      · rintro ⟨rfl, rfl⟩
        exact ⟨rfl, row, .here, rfl⟩
      · rintro ⟨-, inner, hinner, rfl⟩
        obtain ⟨rfl, rfl⟩ := leads_nil.1 hinner
        exact ⟨rfl, rfl⟩
  | cons name path ih =>
      rw [leads_cons, Allowlist.opens, Bool.and_eq_true]
      constructor
      · rintro ⟨r, v, shown, hr, hv, hshown, hlast⟩
        obtain ⟨hallowed, w, hw, rfl⟩ := (mem_projectRow_relation hr).1 hv
        have hbehind := nestsBehind_of_mem h hw hr
        rw [rows_projectRelated hbehind] at hshown
        obtain ⟨next, hnext, rfl⟩ := List.mem_map.1 hshown
        obtain ⟨hopens, inner, hinner, rfl⟩ := (ih (nests_of_mem_rows hbehind hnext)).1 hlast
        exact ⟨⟨hallowed, hopens⟩, inner, .behind hr hw hnext hinner, rfl⟩
      · rintro ⟨⟨hallowed, hopens⟩, inner, hinner, rfl⟩
        obtain ⟨r, w, next, hr, hw, hnext, hinner⟩ := leads_cons.1 hinner
        have hbehind := nestsBehind_of_mem h hw hr
        refine ⟨r, _, k.projectRow r.target (a.forRelation name) next, hr,
          (mem_projectRow_relation hr).2 ⟨hallowed, w, hw, rfl⟩, ?_, ?_⟩
        · rw [rows_projectRelated hbehind]
          exact List.mem_map_of_mem hnext
        · exact (ih (nests_of_mem_rows hbehind hnext)).2 ⟨hopens, inner, hinner, rfl⟩

/-- At the end of a path a key is left iff it was there, the allowlist opens the path, and what
applies there lets the key through. -/
theorem hasKey_projectRow {lets : Allowlist → Bool} (h : k.nests collection row = true)
    (hlets : ∀ b last, name ∈ Named.names (k.projectRow target b last) ↔
      name ∈ Named.names last ∧ lets b = true) :
    k.HasKey collection (k.projectRow collection a row) path target name ↔
      k.HasKey collection row path target name ∧
        a.opens path = true ∧ lets (a.along path) = true := by
  simp only [HasKey, leads_projectRow h]
  constructor
  · rintro ⟨_, ⟨hopens, inner, hinner, rfl⟩, hname⟩
    obtain ⟨hmem, hallowed⟩ := (hlets _ _).1 hname
    exact ⟨⟨inner, hinner, hmem⟩, hopens, hallowed⟩
  · rintro ⟨⟨inner, hinner, hmem⟩, hopens, hallowed⟩
    exact ⟨_, ⟨hopens, inner, hinner, rfl⟩, (hlets _ _).2 ⟨hmem, hallowed⟩⟩

/-- A field at the end of a path is left iff it was there and the allowlist allows the path. -/
theorem hasKey_projectRow_field (h : k.nests collection row = true)
    (hr : k.relation? target name = none) :
    k.HasKey collection (k.projectRow collection a row) path target name ↔
      k.HasKey collection row path target name ∧ a.allowsSegments (path ++ [name]) = true := by
  have hname (b : Allowlist) (last : Record) : name ∈ Named.names (k.projectRow target b last) ↔
      name ∈ last.names ∧ b.allowsField name = true := by
    simp only [Named.mem_names, mem_projectRow_field hr, exists_and_right]
  rw [Allowlist.allowsSegments_append, Bool.and_eq_true]
  exact hasKey_projectRow h hname

/-- A relation at the end of a path is left iff it was there and the allowlist opens the path with
it. -/
theorem hasKey_projectRow_relation (h : k.nests collection row = true) {r : Relation}
    (hr : k.relation? target name = some r) :
    k.HasKey collection (k.projectRow collection a row) path target name ↔
      k.HasKey collection row path target name ∧ a.opens (path ++ [name]) = true := by
  have hname (b : Allowlist) (last : Record) : name ∈ Named.names (k.projectRow target b last) ↔
      name ∈ last.names ∧ b.allowsRelation name = true := by
    simp only [Named.mem_names, mem_projectRow_relation hr]
    constructor
    · rintro ⟨_, hallowed, w, hw, -⟩
      exact ⟨⟨w, hw⟩, hallowed⟩
    · rintro ⟨⟨w, hw⟩, hallowed⟩
      exact ⟨_, hallowed, w, hw, rfl⟩
  rw [Allowlist.opens_append, Bool.and_eq_true]
  exact hasKey_projectRow h hname

/-! ## Nothing else changes -/

mutual

/-- The second row is the first one with entries left out; what is behind a relation that is left is
cut likewise, and every other entry that is left is as it was. -/
inductive Cut (k : Catalog) : String → Record → Record → Prop where
  /-- An empty row. -/
  | nil {collection : String} : Cut k collection [] []
  /-- An entry is left out. -/
  | out {collection : String} {row shown : Record} (entry : String × Value)
      (h : Cut k collection row shown) : Cut k collection (entry :: row) shown
  /-- A field is left with its value. -/
  | field {collection name : String} {v : Value} {row shown : Record}
      (hr : k.relation? collection name = none) (h : Cut k collection row shown) :
      Cut k collection ((name, v) :: row) ((name, v) :: shown)
  /-- A relation is left. -/
  | relation {collection name : String} {v w : Value} {row shown : Record} {r : Relation}
      (hr : k.relation? collection name = some r) (hv : CutBehind k r.target v w)
      (h : Cut k collection row shown) :
      Cut k collection ((name, v) :: row) ((name, w) :: shown)

/-- The second value is the first one with its rows cut, each in its place. -/
inductive CutBehind (k : Catalog) : String → Value → Value → Prop where
  /-- Nothing is changed. -/
  | same {target : String} (v : Value) : CutBehind k target v v
  /-- A row is cut. -/
  | row {target : String} {row shown : Record} (h : Cut k target row shown) :
      CutBehind k target (.record row) (.record shown)
  /-- The rows of a list are cut. -/
  | items {target : String} {vs ws : List Value} (h : CutItems k target vs ws) :
      CutBehind k target (.list vs) (.list ws)

/-- There are as many items as before, at each place the one that was there, with its rows cut. -/
inductive CutItems (k : Catalog) : String → List Value → List Value → Prop where
  /-- No items. -/
  | nil {target : String} : CutItems k target [] []
  /-- The first item and all others. -/
  | cons {target : String} {v w : Value} {vs ws : List Value} (hv : CutBehind k target v w)
      (h : CutItems k target vs ws) : CutItems k target (v :: vs) (w :: ws)

end

/-- What is left of the items of a list are these items with their rows cut. -/
theorem cut_projectItems {items : List Value}
    (h : ∀ inner, .record inner ∈ items → k.Cut target inner (k.projectRow target a inner)) :
    k.CutItems target items (k.projectItems target a items) := by
  induction items with
  | nil => exact .nil
  | cons v items ih =>
      have hitems := ih fun inner hinner => h inner (List.mem_cons_of_mem _ hinner)
      cases v with
      | record inner =>
          rw [projectItems]
          exact .cons (.row (h inner List.mem_cons_self)) hitems
      | _ =>
          rw [projectItems_cons_of_record? rfl]
          exact .cons (.same _) hitems

/-- What is left behind a relation is what was there with its rows cut. -/
theorem cut_projectRelated {v : Value}
    (h : ∀ inner ∈ v.rows, k.Cut target inner (k.projectRow target a inner)) :
    k.CutBehind target v (k.projectRelated target a v) := by
  cases v with
  | record inner =>
      rw [projectRelated]
      exact .row (h inner (by rw [Value.rows, List.mem_singleton]))
  | list items =>
      rw [projectRelated]
      refine .items (cut_projectItems fun inner hinner => h inner ?_)
      rw [Value.rows]
      exact Value.mem_rowsOfAll hinner (by rw [Value.rows, List.mem_singleton])
  | _ =>
      rw [projectRelated_of_ne rfl (by simp)]
      exact .same _

/-- **What is left of a row is the row with entries left out.** -/
theorem cut_projectRow (collection : String) (a : Allowlist) (row : Record) :
    k.Cut collection row (k.projectRow collection a row) := by
  induction row using Value.rows_induction generalizing collection a with
  | hstep row ihrows =>
      rw [projectRow_eq_filterMap]
      -- the rows within are cut already; what is left is the row, entry by entry
      induction row with
      | nil => exact .nil
      | cons entry row ih =>
          obtain ⟨name, v⟩ := entry
          have hrow := ih fun name v hv => ihrows name v (List.mem_cons_of_mem _ hv)
          rw [List.filterMap_cons]
          cases hr : k.relation? collection name with
          | none =>
              rw [shown?_field hr]
              cases a.allowsField name with
              | false => exact .out _ hrow
              | true => exact .field hr hrow
          | some r =>
              rw [shown?_relation hr]
              cases a.allowsRelation name with
              | false => exact .out _ hrow
              | true =>
                  refine .relation hr (cut_projectRelated fun inner hinner => ?_) hrow
                  exact ihrows name v List.mem_cons_self inner hinner r.target (a.forRelation name)

/-! ## Rows of which everything is shown -/

/-- What stands behind a relation stays as it is if the rows there do. -/
theorem projectRelated_eq_self {v : Value}
    (h : ∀ inner ∈ v.rows, k.projectRow target a inner = inner) :
    k.projectRelated target a v = v := by
  cases v with
  | record inner => rw [projectRelated, h inner (by rw [Value.rows, List.mem_singleton])]
  | list items =>
      rw [projectRelated, projectItems_eq_self fun inner hinner => h inner ?_]
      rw [Value.rows]
      exact Value.mem_rowsOfAll hinner (by rw [Value.rows, List.mem_singleton])
  | _ => rw [projectRelated_of_ne rfl (by simp)]

/-- An allowlist without patterns shows every row as it is. -/
theorem projectRow_all (collection : String) (row : Record) :
    k.projectRow collection .all row = row := by
  induction row using Value.rows_induction generalizing collection with
  | hstep row ih =>
      refine projectRow_eq_self fun name v hv => ?_
      cases hr : k.relation? collection name with
      | none => exact .inl ⟨rfl, rfl⟩
      | some r =>
          refine .inr ⟨r, rfl, rfl, projectRelated_eq_self fun inner hinner => ?_⟩
          exact ih name v hv inner hinner r.target

/-- **A second projection finds nothing left to strip.** -/
theorem projectRow_projectRow (h : k.nests collection row = true) (a : Allowlist) :
    k.projectRow collection a (k.projectRow collection a row) = k.projectRow collection a row := by
  induction row using Value.rows_induction generalizing collection a with
  | hstep row ih =>
      refine projectRow_eq_self fun name v hv => ?_
      cases hr : k.relation? collection name with
      | none => exact .inl ⟨rfl, ((mem_projectRow_field hr).1 hv).2⟩
      | some r =>
          obtain ⟨hallowed, w, hw, rfl⟩ := (mem_projectRow_relation hr).1 hv
          have hbehind := nestsBehind_of_mem h hw hr
          refine .inr ⟨r, rfl, hallowed, projectRelated_eq_self fun shown hshown => ?_⟩
          -- the rows there are projected already
          rw [rows_projectRelated hbehind] at hshown
          obtain ⟨inner, hinner, rfl⟩ := List.mem_map.1 hshown
          exact ih name w hw inner hinner (nests_of_mem_rows hbehind hinner) (a.forRelation name)

/-! ## All rows -/

/-- The second row is what the allowlist shows of the first one. -/
structure Strips (k : Catalog) (collection : String) (a : Allowlist) (row shown : Record) :
    Prop where
  /-- Entries are left out, here and behind relations, and nothing else changes. -/
  cut : k.Cut collection row shown
  /-- A field is left, wherever it is, iff the allowlist allows its path. -/
  field : ∀ {path target name}, k.relation? target name = none →
    (k.HasKey collection shown path target name ↔
      k.HasKey collection row path target name ∧ a.allowsSegments (path ++ [name]) = true)
  /-- A relation is left, wherever it is, iff the allowlist allows it and those on the way to it. -/
  relation : ∀ {path target name r}, k.relation? target name = some r →
    (k.HasKey collection shown path target name ↔
      k.HasKey collection row path target name ∧ a.opens (path ++ [name]) = true)

theorem strips_projectRow (h : k.nests collection row = true) (a : Allowlist) :
    k.Strips collection a row (k.projectRow collection a row) where
  cut := cut_projectRow collection a row
  field hr := hasKey_projectRow_field h hr
  relation hr := hasKey_projectRow_relation h hr

/-- Of rows each is projected, in their order. -/
theorem projectRows_records (k : Catalog) (collection : String) (a : Allowlist)
    (rows : List Record) : k.projectRows collection a (rows.map .record) =
      .ok (rows.map (k.projectRow collection a)) := by
  rw [projectRows]
  induction rows with
  | nil => rfl
  | cons row rows ih =>
      rw [List.map_cons, List.mapM_cons, ih, List.map_cons]
      -- an allowlist without patterns is not applied at all
      by_cases ha : a.isAll = true
      · rw [if_pos ha, Allowlist.eq_all_of_isAll ha, projectRow_all]
        rfl
      · simp only [if_neg ha]
        rfl

end Catalog

/-- **A projection strips rows of what the allowlist hides, once and for all.** Behind the relations
of the rows there may be nothing, a scalar, a row, or a list of rows and scalars, at any depth. All
rows are left, in their order, and nothing changes but that entries are left out: a field is left
iff the allowlist allows the path to it, and a relation iff it allows it behind those before it.
Another projection by the same allowlist changes nothing. -/
theorem projection_strips_once (k : Catalog) (collection : String) (a : Allowlist)
    {rows : List Record} (h : ∀ row ∈ rows, k.nests collection row = true) :
    ∃ shown, k.projectRows collection a (rows.map .record) = .ok shown ∧
      List.Forall₂ (k.Strips collection a) rows shown ∧
      k.projectRows collection a (shown.map .record) = .ok shown := by
  refine ⟨_, Catalog.projectRows_records k collection a rows, ?_, ?_⟩
  · rw [List.forall₂_map_right_iff, List.forall₂_same]
    exact fun row hrow => Catalog.strips_projectRow (h row hrow) a
  · refine Catalog.projectRows_eq_ok fun shown hshown => ?_
    obtain ⟨row, hrow, rfl⟩ := List.mem_map.1 hshown
    exact Catalog.projectRow_projectRow (h row hrow) a

namespace Sample

/-- A post with its author, a comment, a comment that is gone, and no tags. -/
def thread : Record :=
  [("id", .text "p1"), ("title", .text "Hello"),
    ("author", .record [("id", .text "u1"), ("name", .text "Ada")]),
    ("comments", .list [.record [("body", .text "Nice"), ("post_id", .text "p1")], .null]),
    ("tags", .null)]

/-- Titles, all about authors, and the bodies of whatever belongs to a post. -/
def excerpt : Allowlist :=
  ⟨some [["title"], ["author"], ["*", "body"]]⟩

/-- The post without what is hidden. -/
def trimmed : Record :=
  [("title", .text "Hello"), ("author", .record [("id", .text "u1"), ("name", .text "Ada")]),
    ("comments", .list [.record [("body", .text "Nice")], .null]), ("tags", .null)]

end Sample

/-- A post with a comment is trimmed to an excerpt, which is an excerpt of itself. -/
theorem projection_strips_once_thread :
    (∀ row ∈ [Sample.thread], (Sample.blog []).reader.catalog.nests "posts" row = true) ∧
    (Sample.blog []).reader.catalog.projectRows "posts" Sample.excerpt [.record Sample.thread] =
      .ok [Sample.trimmed] ∧
    (Sample.blog []).reader.catalog.Strips "posts" Sample.excerpt Sample.thread Sample.trimmed ∧
    (Sample.blog []).reader.catalog.projectRows "posts" Sample.excerpt [.record Sample.trimmed] =
      .ok [Sample.trimmed] := by
  have hnests : ∀ row ∈ [Sample.thread],
      (Sample.blog []).reader.catalog.nests "posts" row = true := by decide
  obtain ⟨shown, hshown, hstrips, hagain⟩ :=
    projection_strips_once (Sample.blog []).reader.catalog "posts" Sample.excerpt hnests
  have htrimmed : (Sample.blog []).reader.catalog.projectRows "posts" Sample.excerpt
      [.record Sample.thread] = .ok [Sample.trimmed] := rfl
  obtain rfl : shown = [Sample.trimmed] := Except.ok.inj (hshown.symm.trans htrimmed)
  exact ⟨hnests, htrimmed, (List.forall₂_cons.1 hstrips).1, hagain⟩

end Warden
