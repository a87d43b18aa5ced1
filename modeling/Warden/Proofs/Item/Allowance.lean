import Warden.Proofs.Item.Payload
import Warden.Proofs.Sample

/-! # Payloads stay inside the allowlist

A payload is prepared entry by entry. An entry stands for a field, for the key of the one row of a
relation, or for items behind a relation, and each of the three is checked against another part of
the allowlist (**`Payload.cases_of_addEntry`**).

* **`Collection.sentItems`** lists the items that entries send behind relations, and
  **`RelatedWrite.Sends`** says that what is written behind a relation is exactly what was sent for
  it: the records as rows and all else as keys.
* **`Payload.Permits`** says of an entry that the allowlist opens every name in it. Whatever is
  prepared is permitted (`permits_of_addEntry`), and what is not is turned down as denied or as
  invalid, before any of the grant's own values is looked at (`exists_refuse_of_not_permits`).
* So a payload writes nothing that is hidden, and all that was sent behind relations
  (**`payload_within_allowlist`**). -/

namespace Warden

/-! ## What is sent -/

/-- The rows among items. -/
def rowsAmong (items : List Value) : List Record :=
  items.filterMap Value.record?

/-- The keys among items: all that are no rows. -/
def keysAmong (items : List Value) : List Value :=
  items.filter fun v => v.record?.isNone

@[simp] theorem rowsAmong_record (row : Record) (items : List Value) :
    rowsAmong (.record row :: items) = row :: rowsAmong items := rfl

@[simp] theorem keysAmong_record (row : Record) (items : List Value) :
    keysAmong (.record row :: items) = keysAmong items := rfl

theorem rowsAmong_key {v : Value} (h : v.record? = none) (items : List Value) :
    rowsAmong (v :: items) = rowsAmong items :=
  List.filterMap_cons_none h

theorem keysAmong_key {v : Value} (h : v.record? = none) (items : List Value) :
    keysAmong (v :: items) = v :: keysAmong items :=
  List.filter_cons_of_pos (by rw [h]; rfl)

/-- The items that an entry sends behind a relation: one item for a relation to one row, the items
of a list for a relation to many. -/
def Collection.itemsSent? (c : Collection) (entry : String × Value) :
    Option (Relation × List Value) :=
  match c.relation? entry.1 with
  | none => none
  | some r =>
    match r.isToOne, entry.2 with
    | true, .record row => some (r, [.record row])
    | false, .list items => some (r, items)
    | _, _ => none

/-- The items that entries send behind relations, in order. -/
def Collection.sentItems (c : Collection) (entries : Record) : List (Relation × List Value) :=
  entries.filterMap c.itemsSent?

/-- The column is that of a field that the allowlist opens, or it holds the key of the one row of a
relation that the allowlist opens. -/
def Collection.Opens (c : Collection) (a : Allowlist) (column : String) : Prop :=
  (c.hasField column = true ∧ a.allowsField column = true) ∨
    ∃ r, c.relation? r.name = some r ∧ r.isToOne = true ∧ a.allowsRelation r.name = true ∧
      r.foreignKey = some column

/-- The rows that a value sends, wherever it stands. -/
def Value.rowsSent : Value → List Record
  | .record row => [row]
  | .list items => rowsAmong items
  | _ => []

/-- What is written is what was sent behind a relation that the allowlist opens: the rows and the
keys among the items, each in order, and in the rows only fields of the target that are opened
behind the relation. -/
structure RelatedWrite.Sends (k : Catalog) (a : Allowlist) (sent : Relation × List Value)
    (w : RelatedWrite) : Prop where
  /-- It is written behind the relation. -/
  relation : w.relation = sent.1
  /-- The allowlist opens the relation. -/
  allowed : a.allowsRelation w.relation.name = true
  /-- The relation leads to a collection whose key the linked rows are found by, and the rows have
  only fields of it that the allowlist opens. -/
  target : ∃ target, k.find? w.relation.target = some target ∧ w.targetKey = target.primaryKey ∧
    ∀ row ∈ w.rows, ∀ name ∈ Named.names row, target.hasField name = true ∧
      (a.forRelation w.relation.name).allowsField name = true
  /-- All rows among the items are written. -/
  rows : w.rows = rowsAmong sent.2
  /-- All keys among the items are written. -/
  keys : w.keys = keysAmong sent.2

theorem Collection.name_of_relation? {c : Collection} {name : String} {r : Relation}
    (h : c.relation? name = some r) : r.name = name := by
  simpa using List.find?_some h

/-- An entry that sends items has the name of a relation, and sends one item for a relation to one
row, and a list of them for a relation to many. -/
theorem Collection.cases_of_itemsSent? {c : Collection} {entry : String × Value}
    {sent : Relation × List Value} (h : c.itemsSent? entry = some sent) :
    c.relation? entry.1 = some sent.1 ∧
      ((sent.1.isToOne = true ∧ ∃ row, entry.2 = .record row ∧ sent.2 = [.record row]) ∨
        (sent.1.isToOne = false ∧ entry.2 = .list sent.2)) := by
  unfold itemsSent? at h
  split at h
  case h_1 => cases h
  case h_2 r hr =>
    split at h
    case h_1 row hone hv =>
      cases h
      exact ⟨hr, .inl ⟨hone, row, hv, rfl⟩⟩
    case h_2 items hmany hv =>
      cases h
      exact ⟨hr, .inr ⟨hmany, hv⟩⟩
    case h_3 => cases h

/-- The rows that an entry sends are those among its items. -/
theorem Collection.rowsSent_of_itemsSent? {c : Collection} {entry : String × Value}
    {sent : Relation × List Value} (h : c.itemsSent? entry = some sent) :
    entry.2.rowsSent = rowsAmong sent.2 := by
  obtain ⟨-, ⟨-, row, hv, hitems⟩ | ⟨-, hv⟩⟩ := cases_of_itemsSent? h
  · rw [hv, hitems]
    rfl
  · rw [hv]
    rfl

namespace Payload

variable {k : Catalog} {c target : Collection} {a : Allowlist} {grant : Grant} {p q : Payload}
  {name : String} {v : Value} {r : Relation} {w w' : RelatedWrite} {items : List Value}

/-! ## What is prepared -/

theorem checkNested_eq_ok {names : List String} :
    checkNested target a names = .ok () ↔
      ∀ name ∈ names, target.hasField name = true ∧ a.allowsField name = true := by
  induction names with
  | nil => exact iff_of_true rfl (List.forall_mem_nil _)
  | cons name names ih =>
      rw [checkNested, List.forall_mem_cons, ← ih]
      cases target.hasField name with
      | false => exact iff_of_false (Outcome.refuse_ne_ok _ _) (fun h => nomatch h.1.1)
      | true =>
          cases a.allowsField name with
          | false => exact iff_of_false (Outcome.refuse_ne_ok _ _) (fun h => nomatch h.1.2)
          | true => exact (and_iff_right ⟨rfl, rfl⟩).symm

/-- The rows and the keys among the items are added, and the rows are checked. -/
theorem addItems_eq_ok :
    addItems target a items w = .ok w' ↔
      (∀ row ∈ rowsAmong items, ∀ name ∈ Named.names row,
        target.hasField name = true ∧ a.allowsField name = true) ∧
      w' = { w with rows := w.rows ++ rowsAmong items, keys := w.keys ++ keysAmong items } := by
  induction items, w using addItems.induct generalizing w' with
  | case1 w =>
      rw [addItems, Except.ok.injEq, eq_comm]
      refine (and_iff_right (List.forall_mem_nil _)).symm.trans (and_congr_right fun _ => ?_)
      simp [rowsAmong, keysAmong]
  | case2 w row rest ih =>
      rw [addItems, Outcome.bind_eq_ok, rowsAmong_record, keysAmong_record, List.forall_mem_cons,
        ← checkNested_eq_ok, and_assoc]
      constructor
      · rintro ⟨_, hrow, hrest⟩
        obtain ⟨hnames, rfl⟩ := ih.1 hrest
        exact ⟨hrow, hnames, by rw [List.append_assoc]; rfl⟩
      · rintro ⟨hrow, hnames, rfl⟩
        exact ⟨(), hrow, ih.2 ⟨hnames, by rw [List.append_assoc]; rfl⟩⟩
  | case3 v rest w hv ih =>
      have hkey : v.record? = none := by
        cases v with
        | record entries => exact absurd rfl (hv entries)
        | _ => rfl
      rw [addItems]
      · rw [ih, rowsAmong_key hkey, keysAmong_key hkey, List.append_assoc]
        rfl
      · exact hv

theorem exists_of_relatedWrite (h : relatedWrite k r a v = .ok w) :
    ∃ target items, k.find? r.target = some target ∧ relatedItems r v = .ok items ∧
      addItems target a items ⟨r, target.primaryKey, [], []⟩ = .ok w := by
  rw [relatedWrite] at h
  cases htarget : k.find? r.target with
  | none =>
      rw [htarget] at h
      exact absurd h (Outcome.refuse_ne_ok _ _)
  | some target =>
      rw [htarget] at h
      obtain ⟨items, hitems, h⟩ := Outcome.bind_eq_ok.1 h
      exact ⟨target, items, rfl, hitems, h⟩

/-- **What an accepted entry can be**: a field, the key of the one row of a relation, or items
behind a relation, each with the checks that it has passed. -/
theorem cases_of_addEntry (h : addEntry k c a p name v = .ok q) :
    (c.relation? name = none ∧ c.hasField name = true ∧ a.allowsField name = true ∧
      q = { p with values := p.values.insert name v }) ∨
    (∃ r column, c.relation? name = some r ∧ a.allowsRelation name = true ∧ r.isToOne = true ∧
      isNested v = false ∧ r.foreignKey = some column ∧
      q = { p with values := p.values.insert column v }) ∨
    ∃ r w, c.relation? name = some r ∧ a.allowsRelation name = true ∧
      (r.isToOne = true → isNested v = true) ∧
      relatedWrite k r (a.forRelation name) v = .ok w ∧
      q = { p with related := p.related ++ [w] } := by
  rw [addEntry] at h
  split at h
  case h_1 r hr =>
    split at h
    case isTrue => exact absurd h (Outcome.refuse_ne_ok _ _)
    case isFalse hrelation =>
      have hallowed : a.allowsRelation name = true := by simpa using hrelation
      split at h
      case isTrue hone =>
        obtain ⟨hone, hv⟩ := Bool.and_eq_true_iff.1 hone
        split at h
        case h_1 => exact absurd h (Outcome.refuse_ne_ok _ _)
        case h_2 column hcolumn =>
          cases h
          exact .inr (.inl ⟨r, column, hr, hallowed, hone, by simpa using hv, hcolumn, rfl⟩)
      case isFalse hnested =>
        obtain ⟨w, hw, h⟩ := Outcome.bind_eq_ok.1 h
        obtain rfl := Outcome.pure_eq_ok.1 h
        refine .inr (.inr ⟨r, w, hr, hallowed, fun hone => ?_, hw, rfl⟩)
        simpa [hone] using hnested
  case h_2 hr =>
    split at h
    case isTrue => exact absurd h (Outcome.refuse_ne_ok _ _)
    case isFalse hfield =>
      split at h
      case isTrue => exact absurd h (Outcome.refuse_ne_ok _ _)
      case isFalse hallowed =>
        cases h
        exact .inl ⟨hr, by simpa using hfield, by simpa using hallowed, rfl⟩

/-- What is accepted behind a relation is what its entry sends there. -/
theorem itemsSent?_of_relatedItems (hr : c.relation? name = some r)
    (hv : r.isToOne = true → isNested v = true) (h : relatedItems r v = .ok items) :
    c.itemsSent? (name, v) = some (r, items) ∧ v.rowsSent = rowsAmong items := by
  unfold relatedItems at h
  simp only [Collection.itemsSent?, hr]
  cases hone : r.isToOne with
  | true =>
      rw [hone] at h
      cases v with
      | record row =>
          cases h
          exact ⟨rfl, rfl⟩
      | list => exact absurd h (Outcome.refuse_ne_ok _ _)
      | _ => cases hv hone
  | false =>
      rw [hone] at h
      cases v with
      | list items' =>
          cases h
          exact ⟨rfl, rfl⟩
      | _ => exact absurd h (Outcome.refuse_ne_ok _ _)

theorem sends_of_relatedWrite (hr : c.relation? name = some r) (ha : a.allowsRelation name = true)
    (hv : r.isToOne = true → isNested v = true)
    (h : relatedWrite k r (a.forRelation name) v = .ok w) :
    ∃ items, c.itemsSent? (name, v) = some (r, items) ∧ v.rowsSent = w.rows ∧
      w.Sends k a (r, items) := by
  obtain ⟨target, items, htarget, hitems, hadd⟩ := exists_of_relatedWrite h
  obtain ⟨hsent, hrows⟩ := itemsSent?_of_relatedItems hr hv hitems
  obtain ⟨hnames, rfl⟩ := addItems_eq_ok.1 hadd
  obtain rfl := Collection.name_of_relation? hr
  exact ⟨items, hsent, hrows, rfl, ha, ⟨target, htarget, rfl, hnames⟩, rfl, rfl⟩

/-- What was added to a payload is what was sent behind relations, and columns that are open. -/
structure Gains (k : Catalog) (c : Collection) (a : Allowlist) (sent : List (Relation × List Value))
    (p q : Payload) : Prop where
  /-- What is written behind relations is what was sent there, in order. -/
  related : ∃ added, q.related = p.related ++ added ∧
    List.Forall₂ (RelatedWrite.Sends k a) sent added
  /-- Every column that was added is open. -/
  values : ∀ column ∈ Named.names q.values, column ∈ Named.names p.values ∨ c.Opens a column

theorem Gains.refl (k : Catalog) (c : Collection) (a : Allowlist) (p : Payload) :
    Gains k c a [] p p :=
  ⟨⟨[], (List.append_nil _).symm, .nil⟩, fun _ hcolumn => .inl hcolumn⟩

theorem Gains.trans {s : Payload} {sent sent' : List (Relation × List Value)}
    (h : Gains k c a sent p q) (h' : Gains k c a sent' q s) : Gains k c a (sent ++ sent') p s := by
  obtain ⟨added, hq, hadded⟩ := h.related
  obtain ⟨added', hs, hadded'⟩ := h'.related
  refine ⟨⟨added ++ added', ?_, List.rel_append hadded hadded'⟩, fun column hcolumn => ?_⟩
  · rw [hs, hq, List.append_assoc]
  · exact (h'.values column hcolumn).elim (h.values column) .inr

/-- An open column may be set. -/
theorem gains_insert {column : String} (h : c.Opens a column) :
    Gains k c a [] p { p with values := p.values.insert column v } := by
  refine ⟨⟨[], (List.append_nil _).symm, .nil⟩, fun other hother => ?_⟩
  rcases Named.mem_names_insert hother with rfl | hother
  · exact .inr h
  · exact .inl hother

/-- An entry adds what it sends behind a relation, or an open column. -/
theorem gains_of_addEntry (h : addEntry k c a p name v = .ok q) :
    Gains k c a (c.itemsSent? (name, v)).toList p q := by
  rcases cases_of_addEntry h with ⟨hr, hfield, hallowed, rfl⟩ |
    ⟨r, column, hr, hallowed, hone, hv, hcolumn, rfl⟩ | ⟨r, w, hr, hallowed, hv, hw, rfl⟩
  · rw [Collection.itemsSent?, hr]
    exact gains_insert (.inl ⟨hfield, hallowed⟩)
  · have hnone : c.itemsSent? (name, v) = none := by
      simp only [Collection.itemsSent?, hr, hone]
      cases v with
      | record | list => cases hv
      | _ => rfl
    obtain rfl := Collection.name_of_relation? hr
    rw [hnone]
    exact gains_insert (.inr ⟨r, hr, hone, hallowed, hcolumn⟩)
  · obtain ⟨items, hsent, -, hsends⟩ := sends_of_relatedWrite hr hallowed hv hw
    rw [hsent]
    exact ⟨⟨[w], rfl, .cons hsends .nil⟩, fun column hcolumn => .inl hcolumn⟩

theorem gains_of_addEntries {entries : Record}
    (h : entries.foldlM (fun p (name, v) => addEntry k c a p name v) p = .ok q) :
    Gains k c a (c.sentItems entries) p q := by
  induction entries generalizing p with
  | nil =>
      cases h
      exact .refl k c a _
  | cons entry entries ih =>
      obtain ⟨name, v⟩ := entry
      obtain ⟨between, hentry, h⟩ := Outcome.bind_eq_ok.1 h
      have hsent : c.sentItems ((name, v) :: entries) =
          (c.itemsSent? (name, v)).toList ++ c.sentItems entries := by
        rw [Collection.sentItems, List.filterMap_cons]
        cases c.itemsSent? (name, v) <;> rfl
      rw [hsent]
      exact (gains_of_addEntry hentry).trans (ih h)

/-! ## What is turned down -/

/-- The allowlist opens every name in the entry: that of a field, or that of a relation and those of
the target's fields in the rows that are sent behind it. -/
def Permits (k : Catalog) (c : Collection) (a : Allowlist) (entry : String × Value) : Prop :=
  match c.relation? entry.1 with
  | none => c.hasField entry.1 = true ∧ a.allowsField entry.1 = true
  | some r => a.allowsRelation entry.1 = true ∧
    ∀ row ∈ entry.2.rowsSent, ∀ name ∈ Named.names row, ∃ target, k.find? r.target = some target ∧
      target.hasField name = true ∧ (a.forRelation entry.1).allowsField name = true

/-- Whatever is accepted is permitted. -/
theorem permits_of_addEntry (h : addEntry k c a p name v = .ok q) : Permits k c a (name, v) := by
  rcases cases_of_addEntry h with ⟨hr, hfield, hallowed, -⟩ | ⟨r, -, hr, hallowed, -, hv, -, -⟩ |
    ⟨r, w, hr, hallowed, hv, hw, -⟩
  · simp only [Permits, hr]
    exact ⟨hfield, hallowed⟩
  · simp only [Permits, hr]
    refine ⟨hallowed, ?_⟩
    cases v with
    | record | list => cases hv
    | _ => exact List.forall_mem_nil _
  · simp only [Permits, hr]
    obtain ⟨items, -, hrows, hsends⟩ := sends_of_relatedWrite hr hallowed hv hw
    obtain ⟨target, htarget, -, hnames⟩ := hsends.target
    rw [hsends.relation] at htarget hnames
    obtain rfl := Collection.name_of_relation? hr
    refine ⟨hallowed, fun row hrow name hname => ?_⟩
    rw [hrows] at hrow
    exact ⟨target, htarget, hnames row hrow name hname⟩

theorem permits_of_addEntries {entries : Record}
    (h : entries.foldlM (fun p (name, v) => addEntry k c a p name v) p = .ok q) :
    ∀ entry ∈ entries, Permits k c a entry := by
  induction entries generalizing p with
  | nil => exact List.forall_mem_nil _
  | cons entry entries ih =>
      obtain ⟨between, hentry, h⟩ := Outcome.bind_eq_ok.1 h
      exact List.forall_mem_cons.2 ⟨permits_of_addEntry hentry, ih h⟩

end Payload

/-- Wherever there is no result, the request is turned down as denied or as invalid. -/
def Outcome.OnlyDenies {α : Type} (x : Outcome α) : Prop :=
  ∀ e, x = .error e → ∃ reason : Refusal, e = .refused reason ∧
    (reason.sort = .accessDenied ∨ reason.sort = .validation)

namespace Outcome.OnlyDenies

variable {α β : Type}

theorem ok (x : α) : OnlyDenies (.ok x : Outcome α) :=
  fun _ h => nomatch h

theorem denied : OnlyDenies (refuse .accessDenied : Outcome α) := by
  rintro _ ⟨⟩
  exact ⟨_, rfl, .inl rfl⟩

theorem invalid {reason : Refusal} (h : reason.sort = .validation) :
    OnlyDenies (refuse reason : Outcome α) := by
  rintro _ ⟨⟩
  exact ⟨_, rfl, .inr h⟩

theorem bind {x : Outcome α} {f : α → Outcome β} (hx : OnlyDenies x) (hf : ∀ y, OnlyDenies (f y)) :
    OnlyDenies (x >>= f) := by
  cases x with
  | ok y => exact hf y
  | error e =>
      rintro _ ⟨⟩
      exact hx e rfl

end Outcome.OnlyDenies

namespace Payload

open Outcome (OnlyDenies)

variable {k : Catalog} {c target : Collection} {a : Allowlist} {grant : Grant}

theorem onlyDenies_checkNested (names : List String) : OnlyDenies (checkNested target a names) := by
  induction names with
  | nil => exact .ok ()
  | cons name names ih =>
      rw [checkNested]
      split
      · exact .invalid rfl
      · split
        · exact .denied
        · exact ih

theorem onlyDenies_addItems (items : List Value) (w : RelatedWrite) :
    OnlyDenies (addItems target a items w) := by
  induction items, w using addItems.induct with
  | case1 w => exact .ok w
  | case2 w row rest ih =>
      rw [addItems]
      exact (onlyDenies_checkNested _).bind fun _ => ih
  | case3 v rest w hv ih =>
      rw [addItems]
      · exact ih
      · exact hv

theorem onlyDenies_relatedWrite (k : Catalog) (r : Relation) (a : Allowlist) (v : Value) :
    OnlyDenies (relatedWrite k r a v) := by
  rw [relatedWrite]
  cases k.find? r.target with
  | none => exact .invalid rfl
  | some target =>
      refine .bind ?_ fun items => onlyDenies_addItems items _
      unfold relatedItems
      split
      · exact .invalid rfl
      · exact .ok _
      · exact .ok _
      · exact .invalid rfl

theorem onlyDenies_addEntry (p : Payload) (name : String) (v : Value) :
    OnlyDenies (addEntry k c a p name v) := by
  rw [addEntry]
  split
  · split
    · exact .denied
    · split
      · split
        · exact .invalid rfl
        · exact .ok _
      · exact (onlyDenies_relatedWrite k _ _ v).bind fun _ => .ok _
  · split
    · exact .invalid rfl
    · split
      · exact .denied
      · exact .ok _

theorem onlyDenies_addEntries (entries : Record) (p : Payload) :
    OnlyDenies (entries.foldlM (fun p (name, v) => addEntry k c a p name v) p) := by
  induction entries generalizing p with
  | nil => exact .ok p
  | cons entry entries ih => exact (onlyDenies_addEntry p _ _).bind ih

/-- **What is not permitted is turned down**, as denied or as invalid. -/
theorem exists_refuse_of_not_permits {r : Resolver} {entries : Record}
    (h : ∃ entry ∈ entries, ¬ Permits k c grant.allowlist entry) :
    ∃ reason : Refusal, prepare k c grant r (.record entries) = refuse reason ∧
      (reason.sort = .accessDenied ∨ reason.sort = .validation) := by
  rw [prepare]
  cases hsent : entries.foldlM (fun p (name, v) => addEntry k c grant.allowlist p name v)
      (⟨[], []⟩ : Payload) with
  | ok sent =>
      obtain ⟨entry, hentry, hnot⟩ := h
      exact absurd (permits_of_addEntries hsent entry hentry) hnot
  | error e =>
      obtain ⟨reason, rfl, hsort⟩ := onlyDenies_addEntries entries _ e hsent
      exact ⟨reason, rfl, hsort⟩

/-! ## Payloads -/

/-- The payload holds what the entries send, within the allowlist, and the grant's own values. -/
structure Within (k : Catalog) (c : Collection) (grant : Grant) (entries : Record)
    (p : Payload) : Prop where
  /-- Every column is open or one that the grant sets. -/
  values : ∀ column ∈ Named.names p.values,
    c.Opens grant.allowlist column ∨ column ∈ Named.names grant.defaultValues
  /-- What is written behind relations is exactly what was sent there, in order. -/
  related : List.Forall₂ (RelatedWrite.Sends k grant.allowlist) (c.sentItems entries) p.related

/-- What is written behind a relation was sent by one of the entries. -/
theorem Within.exists_sends {entries : Record} {p : Payload} (h : p.Within k c grant entries)
    {w : RelatedWrite} (hw : w ∈ p.related) :
    ∃ entry ∈ entries, ∃ sent, c.itemsSent? entry = some sent ∧ w.Sends k grant.allowlist sent := by
  obtain ⟨i, hi, rfl⟩ := List.getElem_of_mem hw
  have hi' : i < (c.sentItems entries).length := h.related.length_eq ▸ hi
  obtain ⟨entry, hentry, hsent⟩ := List.mem_filterMap.1 (List.getElem_mem hi')
  exact ⟨entry, hentry, _, hsent, h.related.get hi' hi⟩

/-- Whatever is prepared holds what was sent. -/
theorem within_of_prepare {r : Resolver} {data : Value} {p : Payload}
    (h : prepare k c grant r data = .ok p) :
    ∃ entries, data = .record entries ∧ p.Within k c grant entries := by
  cases data with
  | record entries =>
      obtain ⟨sent, hsent, h⟩ := Outcome.bind_eq_ok.1 h
      have hgains := gains_of_addEntries hsent
      obtain ⟨resolved, halike, rfl⟩ := exists_putAll_of_setDefault h
      refine ⟨entries, rfl, fun column hcolumn => ?_, ?_⟩
      · rcases Named.mem_names_putAll hcolumn with hcolumn | hcolumn
        · exact .inl ((hgains.values column hcolumn).resolve_left (List.not_mem_nil))
        · exact .inr (halike.names_eq ▸ hcolumn)
      · obtain ⟨added, hrelated, hadded⟩ := hgains.related
        show List.Forall₂ _ _ sent.related
        rwa [hrelated]
  | _ => exact absurd h (Outcome.refuse_ne_ok _ _)

/-- **Payloads stay inside the allowlist.** Of what a caller sends, a payload holds open columns
only and all items behind relations, which are opened, with rows that have opened fields of the
target only; the other columns are those that the grant sets. If a name is not open, that of an
entry or one in a row behind a relation, there is no payload, and the request is turned down as
denied or as invalid. -/
theorem payload_within_allowlist (k : Catalog) (c : Collection) (grant : Grant) (r : Resolver)
    (data : Value) :
    (∀ p, prepare k c grant r data = .ok p → ∃ entries, data = .record entries ∧
      p.Within k c grant entries) ∧
    ∀ entries, data = .record entries → (∃ entry ∈ entries, ¬ Permits k c grant.allowlist entry) →
      ∃ reason : Refusal, prepare k c grant r data = refuse reason ∧
        (reason.sort = .accessDenied ∨ reason.sort = .validation) := by
  refine ⟨fun p h => within_of_prepare h, ?_⟩
  rintro entries rfl h
  exact exists_refuse_of_not_permits h

/-- A post with a title and a new author. -/
def titledPost : Record :=
  [("title", .text "t"), ("author", .record [("name", .text "x")])]

/-- A post with a new author whose key is chosen. -/
def keyedAuthor : Record :=
  [("title", .text "t"), ("author", .record [("name", .text "x"), ("id", .text "y")])]

/-- Where titles and the names of authors are open, a post is written with a named author, and none
is with an author whose key is chosen. -/
theorem payload_within_allowlist_titles :
    (∃ p, prepare Sample.reader.catalog Sample.posts Sample.titlesOnly Sample.resolver
        (.record titledPost) = .ok p ∧
      ∃ entries, Value.record titledPost = .record entries ∧
        p.Within Sample.reader.catalog Sample.posts Sample.titlesOnly entries) ∧
    (∃ entry ∈ keyedAuthor, ¬ Permits Sample.reader.catalog Sample.posts
      Sample.titlesOnly.allowlist entry) ∧
    ∃ reason : Refusal, prepare Sample.reader.catalog Sample.posts Sample.titlesOnly Sample.resolver
        (.record keyedAuthor) = refuse reason ∧
      (reason.sort = .accessDenied ∨ reason.sort = .validation) := by
  have hnot : ¬ Permits Sample.reader.catalog Sample.posts Sample.titlesOnly.allowlist
      ("author", .record [("name", .text "x"), ("id", .text "y")]) := by
    rintro ⟨-, hnames⟩
    obtain ⟨target, -, -, hallowed⟩ :=
      hnames _ List.mem_cons_self "id" (List.mem_cons_of_mem _ List.mem_cons_self)
    revert hallowed
    decide
  have hentry : ∃ entry ∈ keyedAuthor, ¬ Permits Sample.reader.catalog Sample.posts
      Sample.titlesOnly.allowlist entry :=
    ⟨_, List.mem_cons_of_mem _ List.mem_cons_self, hnot⟩
  refine ⟨⟨⟨[("title", .text "t")], [⟨Sample.author, "id", [[("name", .text "x")]], []⟩]⟩, by rfl,
    ?_⟩, hentry, ?_⟩
  · exact (payload_within_allowlist _ _ _ Sample.resolver _).1 _ (by rfl)
  · exact (payload_within_allowlist _ _ _ Sample.resolver _).2 keyedAuthor rfl hentry

end Payload

end Warden
