import Warden.Database.Tables
import Warden.Proofs.Database.Transaction

/-! # Databases that are tables

**`Tables`** describes the permissions and roles of a database that answers as its tables say, and
in which nothing fails. What stands in the table of permissions after some commands is a
**`Ledger`**: the rules that are committed, and those that the open transaction sees. Statements
change the latter, and a commit or a rollback makes the two one again.

A rule is written as a row of cells and read back from them. What is read back is the rule as it was
stored (**`Permission.asRead`**), under the same role, collection and action. -/

namespace Warden

/-! ## Rules as rows -/

theorem Action.ofName?_name (a : Action) : ofName? a.name = some a := by
  cases a <;> rfl

namespace Permission

/-- The row of a rule. -/
def toRow (p : Permission) : Row :=
  .tuple [.uuid p.id, .uuid p.role, .text p.collection, .text p.action.name, p.fields, p.conditions,
    p.relConditions, p.defaultValues, p.createdAt, p.updatedAt]

/-- The field paths in a cell. -/
def readFields : Value → Outcome Value
  | .null => .ok .null
  | v => do return .list (← v.elements)

/-- Everything is read back as it stands in the row, but for field paths, which become a list, and
for conditions and values that count as false, which become empty records. -/
theorem ofRow_toRow (p : Permission) : ofRow p.toRow = (do
    let fields ← readFields p.fields
    return { p with
      fields
      relConditions := p.relConditions.orElse (.record [])
      defaultValues := p.defaultValues.orElse (.record []) }) := by
  obtain ⟨id, role, collection, action, fields, conditions, relConditions, defaultValues, createdAt,
    updatedAt⟩ := p
  cases action <;> cases fields <;> rfl

/-- The rule can be read back from its row. -/
def Readable (p : Permission) : Prop :=
  ∃ q, ofRow p.toRow = .ok q

/-- The rule as it is read back from its row. -/
def asRead (p : Permission) : Permission :=
  (ofRow p.toRow).toOption.getD p

theorem ofRow_eq_asRead {p : Permission} (h : p.Readable) : ofRow p.toRow = .ok p.asRead := by
  obtain ⟨q, hq⟩ := h
  rw [asRead, hq]
  rfl

/-- Rules whose field paths have been checked can be read back. -/
theorem readable_of_checkFields {p : Permission} (h : checkFields p.fields = .ok ()) :
    p.Readable := by
  rw [Readable, ofRow_toRow]
  cases hfields : p.fields with
  | null => exact ⟨_, rfl⟩
  | list items => exact ⟨_, rfl⟩
  | _ =>
      rw [hfields] at h
      exact absurd h (Outcome.refuse_ne_ok _ _)

/-- A rule is read back under its own identifier, role, collection and action. -/
theorem asRead_keys (p : Permission) :
    p.asRead.id = p.id ∧ p.asRead.role = p.role ∧ p.asRead.collection = p.collection ∧
      p.asRead.action = p.action := by
  rw [asRead, ofRow_toRow]
  cases readFields p.fields with
  | ok fields => exact ⟨rfl, rfl, rfl, rfl⟩
  | error e => exact ⟨rfl, rfl, rfl, rfl⟩

@[simp] theorem asRead_id (p : Permission) : p.asRead.id = p.id :=
  (asRead_keys p).1

@[simp] theorem isFor_asRead (p : Permission) (role : Uuid) (collection : String)
    (action : Action) : p.asRead.isFor role collection action = p.isFor role collection action := by
  obtain ⟨-, hrole, hcollection, haction⟩ := asRead_keys p
  rw [isFor, isFor, hrole, hcollection, haction]

/-- Rules that can be read back are all read back. -/
theorem mapM_ofRow {ps : List Permission} (h : ∀ p ∈ ps, p.Readable) :
    (ps.map toRow).mapM ofRow = .ok (ps.map asRead) := by
  induction ps with
  | nil => rfl
  | cons p ps ih =>
      obtain ⟨hp, hps⟩ := List.forall_mem_cons.1 h
      rw [List.map_cons, List.mapM_cons, ofRow_eq_asRead hp, ih hps]
      rfl

/-- Rules that are all read back can each be read back. -/
theorem readable_of_mapM {ps qs : List Permission} (h : (ps.map toRow).mapM ofRow = .ok qs) :
    ∀ p ∈ ps, p.Readable := by
  induction ps generalizing qs with
  | nil => exact fun p hp => nomatch hp
  | cons p ps ih =>
      simp only [List.map_cons, List.mapM_cons, Outcome.bind_eq_ok, Outcome.pure_eq_ok] at h
      obtain ⟨q, hq, rest, hrest, -⟩ := h
      exact List.forall_mem_cons.2 ⟨⟨q, hq⟩, ih hrest⟩

/-- The first of some rules that can be read back. -/
theorem ofFirst?_toRow {ps : List Permission} (h : ∀ p ∈ ps, p.Readable) :
    ofFirst? (ps.map toRow) = .ok (ps.head?.map asRead) := by
  cases ps with
  | nil => rfl
  | cons p ps =>
      have hp := ofRow_eq_asRead (h p List.mem_cons_self)
      show (do return some (← ofRow p.toRow)) = _
      rw [hp]
      rfl

end Permission

namespace Role

/-- The row of a role. -/
def toRow (r : Role) : Row :=
  .tuple [.uuid r.id, .text r.name, r.description, .bool r.isTenantSpecific]

theorem ofFirst?_toRow (roles : List Role) : ofFirst? (roles.map toRow) = .ok roles.head? := by
  cases roles <;> rfl

end Role

/-! ## Tables -/

/-- The tables of permissions and roles, with the order in which the rules come. -/
structure Tables where
  /-- The roles. -/
  roles : List Role
  /-- The rules at the beginning. -/
  rules : List Permission
  /-- The order in which rules come when all are asked for. -/
  arrange : List Permission → List Permission
  /-- All of them come. -/
  perm : ∀ ps, (arrange ps).Perm ps

/-- What stands in the table of permissions. -/
structure Ledger where
  /-- What has been committed. -/
  committed : List Permission
  /-- What the open transaction sees. -/
  working : List Permission

namespace Permission

/-- The rule with the parts of another one that a change writes. -/
def withParts (q p : Permission) : Permission :=
  { q with
    fields := p.fields, conditions := p.conditions, relConditions := p.relConditions
    defaultValues := p.defaultValues, updatedAt := p.updatedAt }

/-- The rules with one of them changed. -/
def changed (p : Permission) (ps : List Permission) : List Permission :=
  ps.map fun q => if q.id = p.id then q.withParts p else q

/-- The rules without the one with an identifier. -/
def without (id : Uuid) (ps : List Permission) : List Permission :=
  ps.filter fun q => q.id ≠ id

end Permission

namespace Ledger

/-- The table after a command. -/
def after (l : Ledger) : Command → Ledger
  | .execute (.addPermission p) => { l with working := l.working ++ [p] }
  | .execute (.changePermission p) => { l with working := p.changed l.working }
  | .execute (.removePermission id) => { l with working := Permission.without id l.working }
  | .commit => { l with committed := l.working }
  | .connect | .rollback | .release => { l with working := l.committed }
  | _ => l

/-- No statement commits anything. -/
theorem committed_after_execute (l : Ledger) (s : Statement) :
    (l.after (.execute s)).committed = l.committed := by
  cases s <;> rfl

end Ledger

namespace Tables

variable (t : Tables)

/-- The table after some commands, the latest first. -/
def ledger (past : List Command) : Ledger :=
  past.foldr (fun c l => l.after c) ⟨t.rules, t.rules⟩

/-- The rows that a statement is replied with, as the table stands. -/
def rows (rules : List Permission) : Statement → List Row
  | .permissions => (t.arrange rules).map Permission.toRow
  | .permission id => (rules.filter (·.id = id)).map Permission.toRow
  | .permissionFor role collection action =>
    (rules.filter (·.isFor role collection action)).map Permission.toRow
  | .role id => (t.roles.filter (·.id = id)).map Role.toRow
  | .roleNamed name => (t.roles.filter fun r => name.text? = some r.name).map Role.toRow
  | .roles => t.roles.map Role.toRow
  | _ => []

/-- The database that answers as the tables say. -/
def database : Database := fun past c =>
  match c with
  | .execute s => some (t.rows (t.ledger past).working s)
  | _ => some []

@[simp] theorem ledger_cons (c : Command) (past : List Command) :
    t.ledger (c :: past) = (t.ledger past).after c := rfl

variable {t} {α : Type} {past said : List Command}

/-- A statement is executed, and replied as the tables say. -/
@[simp] theorem run_execute (s : Statement) : (Dialogue.execute s).run t.database past =
    (.execute s :: past, .ok (t.rows (t.ledger past).working s)) := rfl

/-- Statements commit nothing. -/
theorem committed_ledger_append {statements : List Command}
    (h : ∀ c ∈ statements, ∃ s, c = .execute s) :
    (t.ledger (statements ++ past)).committed = (t.ledger past).committed := by
  induction statements with
  | nil => rfl
  | cons c statements ih =>
      obtain ⟨⟨s, rfl⟩, hrest⟩ := List.forall_mem_cons.1 h
      rw [List.cons_append, ledger_cons, Ledger.committed_after_execute, ih hrest]

/-- Between transactions everything is committed. -/
def Settled (t : Tables) (past : List Command) : Prop :=
  (t.ledger past).working = (t.ledger past).committed

/-- A transaction that ends well commits what its body leaves; one that fails leaves what was
committed before. -/
theorem run_transaction (d : Dialogue α) :
    d.transaction.run t.database past =
      match d.run t.database (.connect :: past) with
      | (said, .ok a) => (.release :: .commit :: said, .ok a)
      | (said, .error e) => (.release :: .rollback :: .rollback :: said, .error e) := by
  have hcommand (said : List Command) (c : Command) (hc : ∀ s, c ≠ .execute s) :
      t.database said c = some [] := by
    cases c with
    | execute s => exact absurd rfl (hc s)
    | _ => rfl
  rw [Dialogue.run_transaction, hcommand past .connect (by simp)]
  rcases d.run t.database (.connect :: past) with ⟨said, e | a⟩
  · rfl
  · simp only [hcommand said .commit (by simp)]

/-- A transaction that fails leaves the table as it was. -/
theorem ledger_of_transaction_error {d : Dialogue α} (hd : d.Executing) {e : Failure}
    (h : d.transaction.run t.database past = (said, .error e)) :
    (t.ledger said).committed = (t.ledger past).committed ∧ t.Settled said := by
  obtain ⟨statements, hrun, hstatements⟩ := Dialogue.exists_said d t.database (.connect :: past)
  have hcommitted : (t.ledger (statements ++ .connect :: past)).committed =
      (t.ledger (.connect :: past)).committed :=
    committed_ledger_append fun c hc => hd c (hstatements c hc)
  rw [← hrun] at hcommitted
  rw [run_transaction] at h
  rcases hbody : d.run t.database (.connect :: past) with ⟨between, e' | a⟩
  · rw [hbody] at h hcommitted
    cases h
    exact ⟨hcommitted, rfl⟩
  · rw [hbody] at h
    cases h

/-- A transaction that ends well has led its body to an end, and all that the body leaves is
committed. -/
theorem run_of_transaction_ok {d : Dialogue α} {a : α}
    (h : d.transaction.run t.database past = (said, .ok a)) :
    ∃ between, d.run t.database (.connect :: past) = (between, .ok a) ∧
      (t.ledger said).committed = (t.ledger between).working ∧ t.Settled said := by
  rw [run_transaction] at h
  rcases hbody : d.run t.database (.connect :: past) with ⟨between, e | b⟩
  · rw [hbody] at h
    cases h
  · rw [hbody] at h
    cases h
    exact ⟨between, rfl, rfl, rfl⟩

end Tables

end Warden
