import Warden.Proofs.Database.Tables

/-! # Databases that are tables and may fail

**`Outage`** describes a database that answers as its tables say where it answers, and any of whose
commands may fail. A statement that fails changes nothing, and a commit that fails commits nothing;
to roll back or to give a connection back takes back what is not committed, whether or not that
command fails.

What is known of dialogues on tables in which nothing fails is known here as well of those that come
to a good end: a dialogue that **`Dialogue.Heeds`** every failure has then met none (`run_ok`). -/

namespace Warden

/-- Tables, and which commands fail after those before them. -/
structure Outage where
  /-- The tables. -/
  tables : Tables
  /-- Which commands fail. -/
  fails : List Command → Command → Bool

namespace Outage

variable (o : Outage)

/-- The table after a command, which may have failed. -/
def after (past : List Command) (l : Ledger) (c : Command) : Ledger :=
  match c with
  | .execute _ | .commit => if o.fails past c then l else l.after c
  | _ => l.after c

/-- The table after some commands, the latest first. -/
def ledger : List Command → Ledger
  | [] => ⟨o.tables.rules, o.tables.rules⟩
  | c :: past => o.after past (ledger past) c

/-- The rules that are stored after some commands. -/
def stored (past : List Command) : List Permission :=
  (o.ledger past).committed

/-- The rules that can be seen after some commands. -/
def seen (past : List Command) : List Permission :=
  (o.ledger past).working

/-- Between transactions everything is committed. -/
def Settled (past : List Command) : Prop :=
  o.seen past = o.stored past

/-- The database that fails where it does, and else answers as the tables say. -/
def database : Database := fun past c =>
  if o.fails past c then none
  else
    match c with
    | .execute s => some (o.tables.rows (o.seen past) s)
    | _ => some []

/-- The tables with the rules that are stored after some commands. -/
def tablesAt (past : List Command) : Tables :=
  { o.tables with rules := o.stored past }

variable {o} {α β : Type} {past said : List Command}

/-! ## Commands -/

/-- No statement commits anything. -/
theorem stored_execute (s : Statement) : o.stored (.execute s :: past) = o.stored past := by
  show (if o.fails past (.execute s) then o.ledger past else _).committed = _
  split
  · rfl
  · exact Ledger.committed_after_execute _ s

theorem stored_append {statements : List Command} (h : ∀ c ∈ statements, ∃ s, c = .execute s) :
    o.stored (statements ++ past) = o.stored past := by
  induction statements with
  | nil => rfl
  | cons c statements ih =>
      obtain ⟨⟨s, rfl⟩, hrest⟩ := List.forall_mem_cons.1 h
      rw [List.cons_append, stored_execute, ih hrest]

/-- A commit that fails commits nothing. -/
theorem stored_commit_of_fails (h : o.fails past .commit = true) :
    o.stored (.commit :: past) = o.stored past := by
  show (if o.fails past .commit then o.ledger past else _).committed = _
  rw [if_pos h]
  rfl

/-- A commit that does not fail commits what can be seen. -/
theorem stored_commit (h : o.fails past .commit = false) :
    o.stored (.commit :: past) = o.seen past := by
  show (if o.fails past .commit then o.ledger past else _).committed = _
  rw [h]
  rfl

/-- To ask for all rules changes nothing. -/
theorem seen_execute_permissions : o.seen (.execute .permissions :: past) = o.seen past := by
  show (if o.fails past _ then o.ledger past else o.ledger past).working = _
  rw [ite_self]
  rfl

/-- There is no reply iff the command fails. -/
theorem database_eq_none {c : Command} : o.database past c = none ↔ o.fails past c = true := by
  unfold database
  cases c <;> simp

/-- A statement that does not fail is replied to as the tables say. -/
theorem database_execute {s : Statement} (h : o.fails past (.execute s) = false) :
    o.database past (.execute s) = some (o.tables.rows (o.seen past) s) := by
  rw [database, h]
  rfl

theorem run_execute {s : Statement} (h : o.fails past (.execute s) = false) :
    (Dialogue.execute s).run o.database past =
      (.execute s :: past, .ok (o.tables.rows (o.seen past) s)) := by
  simp only [Dialogue.execute, Dialogue.ask, Dialogue.run, database_execute h]

theorem run_execute_of_fails {s : Statement} (h : o.fails past (.execute s) = true) :
    (Dialogue.execute s).run o.database past =
      (.execute s :: past, breakOff .storeFailure) := by
  simp only [Dialogue.execute, Dialogue.ask, Dialogue.run, database_eq_none.2 h]

/-- A command that is replied to has not failed. -/
theorem fails_eq_false {c : Command} {rows : List Row} (h : o.database past c = some rows) :
    o.fails past c = false := by
  rw [Bool.eq_false_iff]
  intro hfails
  rw [database_eq_none.2 hfails] at h
  cases h

/-! ## Dialogues that come to a good end -/

end Outage

/-- The dialogue fails as soon as a command does. -/
inductive Dialogue.Heeds {α : Type} : Dialogue α → Prop where
  /-- The dialogue has ended. -/
  | done (result : Outcome α) : Heeds (done result)
  /-- A command is given. -/
  | step (c : Command) (next : Reply → Dialogue α) (e : Failure)
      (hnone : next none = done (.error e)) (hsome : ∀ rows, Heeds (next (some rows))) :
      Heeds (step c next)

namespace Dialogue

variable {α β : Type} {d : Dialogue α} {f : α → Dialogue β}

/-- To execute a statement and look at the rows is to heed its failure. -/
theorem heeds_query (s : Statement) (read : List Row → Outcome α) :
    (execute s >>= fun rows => done (read rows)).Heeds :=
  .step _ _ _ rfl fun _ => .done _

theorem Heeds.bind (hd : d.Heeds) (hf : ∀ a, (f a).Heeds) : (d >>= f).Heeds := by
  induction hd with
  | done result =>
      cases result with
      | ok a => exact hf a
      | error e => exact .done _
  | step c next e hnone _ ih =>
      refine .step c _ e ?_ ih
      show Dialogue.bind f (next none) = _
      rw [hnone]
      rfl

theorem heeds_lift_bind {x : Outcome α} (h : ∀ a, x = .ok a → (f a).Heeds) :
    (liftM x >>= f).Heeds := by
  cases x with
  | ok a => exact h a rfl
  | error e => exact .done _

end Dialogue

namespace Outage

variable {o : Outage} {α : Type} {past said : List Command} {d : Dialogue α} {a : α}

/-- **A dialogue that heeds failures and comes to a good end has met none**: on tables with the same
rules, in which nothing fails, it comes to the same end and leaves the same rules. -/
theorem run_ok (t : Tables) (past' : List Command) (hd : d.Heeds) (hexec : d.Executing)
    (hroles : t.roles = o.tables.roles) (harrange : t.arrange = o.tables.arrange)
    (hledger : t.ledger past' = o.ledger past) (h : d.run o.database past = (said, .ok a)) :
    ∃ said', d.run t.database past' = (said', .ok a) ∧ t.ledger said' = o.ledger said := by
  induction hd generalizing past past' with
  | done result =>
      obtain ⟨rfl, rfl⟩ := Prod.mk.inj h
      exact ⟨past', rfl, hledger⟩
  | step c next e hnone hsome ih =>
      obtain ⟨s, rfl⟩ := hexec c .here
      have hnext (reply : Reply) : (next reply).Executing :=
        fun c hc => hexec c (.later reply hc)
      rw [Dialogue.run] at h
      cases hfails : o.fails past (.execute s) with
      | true =>
          -- a failure that is heeded is no good end
          rw [database_eq_none.2 hfails, hnone] at h
          cases (Prod.mk.inj h).2
      | false =>
          -- both databases reply alike, and stay alike
          have hrows : t.rows (t.ledger past').working s = o.tables.rows (o.seen past) s := by
            rw [hledger]
            cases s <;> simp [Tables.rows, hroles, harrange, seen]
          have hafter : t.ledger (.execute s :: past') = o.ledger (.execute s :: past) := by
            show (t.ledger past').after _ = if o.fails past (.execute s) then _ else _
            rw [hfails, hledger]
            rfl
          rw [database_execute hfails, ← hrows] at h
          exact ih _ _ (hnext _) hafter h

/-! ## Transactions -/

/-- The ways in which a transaction ends. -/
inductive Finished (o : Outage) (past : List Command) (d : Dialogue α) :
    List Command × Outcome α → Prop where
  /-- It fails, and what is stored is as before. -/
  | failed (said : List Command) (e : Failure) (hstored : o.stored said = o.stored past)
      (hsettled : o.Settled said) : Finished o past d (said, .error e)
  /-- What the body leaves is stored. -/
  | committed (between : List Command) (a : α)
      (hrun : d.run o.database (.connect :: past) = (between, .ok a))
      (hstored : o.stored (.release :: .commit :: between) = o.seen between)
      (hsettled : o.Settled (.release :: .commit :: between)) :
      Finished o past d (.release :: .commit :: between, .ok a)

/-- To take a transaction back takes back what is not committed, whether or not it succeeds. -/
theorem exists_of_takenBack {e : Failure} {result : List Command × Outcome α}
    (h : Dialogue.TakenBack o.database said e result) :
    ∃ f, result.2 = .error f ∧ o.stored result.1 = o.stored said ∧ o.Settled result.1 := by
  cases h <;> exact ⟨_, rfl, rfl, rfl⟩

theorem Finished.of_takenBack {e : Failure} {result : List Command × Outcome α}
    (h : Dialogue.TakenBack o.database said e result) (hstored : o.stored said = o.stored past) :
    Finished o past d result := by
  obtain ⟨after, outcome⟩ := result
  obtain ⟨f, rfl, hkept, hsettled⟩ := exists_of_takenBack h
  exact .failed after f (hkept.trans hstored) hsettled

/-- A transaction that only executes statements stores what its body leaves, or nothing. -/
theorem finished_transaction (hd : d.Executing) (past : List Command) :
    Finished o past d (d.transaction.run o.database past) := by
  obtain ⟨statements, hsaid, hstatements⟩ := d.exists_said o.database (.connect :: past)
  have hstored : o.stored (statements ++ .connect :: past) = o.stored past :=
    stored_append fun c hc => hd c (hstatements c hc)
  rw [← hsaid] at hstored
  rw [Dialogue.run_transaction]
  cases hconnect : o.database past .connect with
  | none => exact .failed _ _ rfl rfl
  | some rows =>
      rcases hbody : d.run o.database (.connect :: past) with ⟨between, e | a⟩
      · rw [hbody] at hstored
        exact .of_takenBack (Dialogue.takenBack_finish e _ _) hstored
      · rw [hbody] at hstored
        cases hcommit : o.database between .commit with
        | none =>
            -- what the body has done is rolled back
            simp only [hcommit]
            have hfails := database_eq_none.1 hcommit
            exact .of_takenBack (Dialogue.takenBack_finish _ _ _)
              ((stored_commit_of_fails hfails).trans hstored)
        | some rows =>
            simp only [hcommit]
            exact .committed between a hbody (stored_commit (fails_eq_false hcommit)) rfl

end Outage

end Warden
