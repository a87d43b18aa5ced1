import Warden.Proofs.Database.Transaction

/-! # Databases that answer

A dialogue can break off because the database fails to execute a command, or because a row comes
back without the cell that is looked for. **`Database.Answers`** excludes these two and nothing
else: the rows are any rows that have a first cell. A dialogue that then has a result
(**`Dialogue.Finishes`**) finishes whatever these cells are, one lemma for each way in which
dialogues are put together; led as a transaction it is committed after the last statement of its
transcript (`exists_run_transaction`). -/

namespace Warden

/-- Every row has a first cell. -/
def Row.HaveKeys (rows : List Row) : Prop :=
  ∀ row ∈ rows, ∃ v, Row.cell row 0 = .ok v

/-- Every command is replied to, with rows that have a first cell. -/
def Database.Answers (db : Database) : Prop :=
  ∀ past c, ∃ rows, db past c = some rows ∧ Row.HaveKeys rows

/-- Rows that have a first cell have keys. -/
theorem Row.HaveKeys.exists_keys {rows : List Row} (h : HaveKeys rows) :
    ∃ keys, Row.keys rows = .ok keys := by
  rw [Row.keys]
  induction rows with
  | nil => exact ⟨[], rfl⟩
  | cons row rows ih =>
      obtain ⟨hrow, hrows⟩ := List.forall_mem_cons.1 h
      obtain ⟨key, hkey⟩ := hrow
      obtain ⟨keys, hkeys⟩ := ih hrows
      refine ⟨key :: keys, ?_⟩
      rw [List.mapM_cons, hkey, hkeys]
      rfl

namespace Dialogue

variable {α β : Type} {d : Dialogue α} {f : α → Dialogue β}

/-- With a database that answers, the dialogue has a result. -/
def Finishes (d : Dialogue α) : Prop :=
  ∀ db : Database, db.Answers → ∀ past, ∃ after a, d.run db past = (after, .ok a)

theorem finishes_pure (a : α) : (pure a : Dialogue α).Finishes :=
  fun _ _ past => ⟨past, a, rfl⟩

/-- What follows a dialogue gets a result of which is known what the dialogue ensures. -/
theorem Finishes.bind_of_ensures {Q : Transcript → α → Prop} (hd : d.Finishes) (hQ : d.Ensures Q)
    (hf : ∀ t a, Q t a → (f a).Finishes) : (d >>= f).Finishes := by
  intro db hdb past
  obtain ⟨between, a, hrun⟩ := hd db hdb past
  obtain ⟨t, -, ha⟩ := hQ db past between a hrun
  rw [run_bind_of_ok f hrun]
  exact hf t a ha db hdb between

theorem Finishes.bind (hd : d.Finishes) (hf : ∀ a, (f a).Finishes) : (d >>= f).Finishes := by
  intro db hdb past
  obtain ⟨between, a, hrun⟩ := hd db hdb past
  rw [run_bind_of_ok f hrun]
  exact hf a db hdb between

/-- A computation that asks nothing leaves it to what follows to finish. -/
theorem finishes_lift_bind {x : Outcome α} {a : α} (hx : x = .ok a) (hf : (f a).Finishes) :
    (liftM x >>= f).Finishes := by
  rw [hx]
  exact hf

/-- What follows a statement gets rows that have a first cell. -/
theorem finishes_execute_bind {s : Statement} {f : List Row → Dialogue β}
    (hf : ∀ rows, Row.HaveKeys rows → (f rows).Finishes) : (execute s >>= f).Finishes := by
  intro db hdb past
  obtain ⟨rows, hreply, hrows⟩ := hdb past (.execute s)
  have hrun : (execute s).run db past = (.execute s :: past, .ok rows) := by
    simp only [execute, ask, run, hreply]
  rw [run_bind_of_ok f hrun]
  exact hf rows hrows db hdb _

/-- **A dialogue that finishes is committed as a transaction**, after the last statement of its
transcript. -/
theorem exists_run_transaction {Q : Transcript → α → Prop} (hd : d.Finishes) (hQ : d.Ensures Q)
    {db : Database} (hdb : db.Answers) (past : List Command) :
    ∃ said a t, d.transaction.run db past = (.release :: .commit :: said, .ok a) ∧
      Transcript.Follows db (.connect :: past) t said ∧ Q t a := by
  obtain ⟨said, a, hrun⟩ := hd db hdb (.connect :: past)
  obtain ⟨t, ht, ha⟩ := hQ db _ said a hrun
  obtain ⟨_, hconnect, -⟩ := hdb past .connect
  obtain ⟨_, hcommit, -⟩ := hdb said .commit
  refine ⟨said, a, t, ?_, ht, ha⟩
  rw [run_transaction, hconnect, hrun]
  simp only [hcommit]

end Dialogue

end Warden
