import Warden.Proofs.Database.Says

/-! # Transactions from beginning to end

A **`Transcript`** lists statements that were executed, each with the rows it was replied with.
**`Dialogue.Ensures`** says which transcript stands behind every result of a dialogue: one lemma for
each way in which dialogues are put together.

**`Dialogue.Atomic`** lists the ways in which an operation can end that is one transaction: refused
before it asks for anything, left without a connection, rolled back, or committed after the last
statement of its transcript. A dialogue that only executes statements, led as a transaction, ends in
one of them, whatever the database replies (`atomic_transaction`). -/

namespace Warden

/-! ## Transcripts -/

/-- A statement that was executed. -/
structure Exchange where
  /-- The statement. -/
  statement : Statement
  /-- The rows it was replied with. -/
  rows : List Row

/-- The statements that were executed, in order. -/
abbrev Transcript := List Exchange

/-- After the commands before them the statements are executed, and nothing else is said. -/
inductive Transcript.Follows (db : Database) : List Command → Transcript → List Command → Prop where
  /-- Nothing is executed. -/
  | nil (past : List Command) : Follows db past [] past
  /-- A statement is executed, and the others after it. -/
  | cons {past after : List Command} {e : Exchange} {t : Transcript}
      (he : db past (.execute e.statement) = some e.rows)
      (ht : Follows db (.execute e.statement :: past) t after) : Follows db past (e :: t) after

theorem Transcript.Follows.append {db : Database} {past between after : List Command}
    {t u : Transcript} (ht : Follows db past t between) (hu : Follows db between u after) :
    Follows db past (t ++ u) after := by
  induction ht with
  | nil => exact hu
  | cons he _ ih => exact .cons he (ih hu)

namespace Dialogue

variable {α β : Type} {d : Dialogue α} {f : α → Dialogue β} {Q : Transcript → α → Prop}
  {R : Transcript → β → Prop} {db : Database} {past after : List Command}

/-- If the dialogue has a result, it has executed the statements of a transcript of which, with the
result, the property holds. -/
def Ensures (d : Dialogue α) (Q : Transcript → α → Prop) : Prop :=
  ∀ db past after a, d.run db past = (after, .ok a) →
    ∃ t, Transcript.Follows db past t after ∧ Q t a

theorem ensures_pure {a : α} (h : Q [] a) : (pure a : Dialogue α).Ensures Q := by
  rintro db past after b hrun
  cases hrun
  exact ⟨[], .nil past, h⟩

theorem Ensures.mono {Q' : Transcript → α → Prop} (h : d.Ensures Q) (hQ : ∀ t a, Q t a → Q' t a) :
    d.Ensures Q' := by
  intro db past after a hrun
  obtain ⟨t, ht, ha⟩ := h db past after a hrun
  exact ⟨t, ht, hQ t a ha⟩

/-- A computation that asks nothing leaves the transcript to what follows. -/
theorem ensures_lift_bind {x : Outcome α} (h : ∀ a, x = .ok a → (f a).Ensures R) :
    (liftM x >>= f).Ensures R := by
  intro db past after b hrun
  obtain ⟨_, a, hx, hf⟩ := run_bind_eq_ok.1 hrun
  obtain ⟨rfl, ha⟩ := Prod.mk.inj hx
  exact h a ha db past after b hf

/-- What is turned down has no result. -/
theorem ensures_refuse (reason : Refusal) : (done (refuse reason) : Dialogue α).Ensures Q := by
  intro db past after a hrun
  cases (Prod.mk.inj hrun).2

/-- The transcript of two dialogues is that of the first with that of the second after it. -/
theorem Ensures.bind (hd : d.Ensures Q)
    (hf : ∀ t a, Q t a → (f a).Ensures fun u b => R (t ++ u) b) : (d >>= f).Ensures R := by
  intro db past after b hrun
  obtain ⟨between, a, hrun₁, hrun₂⟩ := run_bind_eq_ok.1 hrun
  obtain ⟨t, ht, hQ⟩ := hd _ _ _ _ hrun₁
  obtain ⟨u, hu, hR⟩ := hf t a hQ _ _ _ _ hrun₂
  exact ⟨t ++ u, ht.append hu, hR⟩

/-- To execute a statement is to add it to the transcript with its rows. -/
theorem ensures_execute (s : Statement) : (execute s).Ensures fun t rows => t = [⟨s, rows⟩] := by
  intro db past after rows hrun
  simp only [execute, ask, run] at hrun
  cases hreply : db past (.execute s) with
  | none =>
      rw [hreply] at hrun
      cases hrun
  | some rows' =>
      rw [hreply] at hrun
      cases hrun
      exact ⟨[⟨s, rows⟩], .cons hreply (.nil _), rfl⟩

/-! ## Statements alone -/

/-- Nothing is said but that statements be executed. -/
def Executing (d : Dialogue α) : Prop :=
  ∀ c, Says c d → ∃ s, c = .execute s

/-- What a run adds to the commands before it, the dialogue can say. -/
theorem exists_said (d : Dialogue α) (db : Database) (past : List Command) :
    ∃ said, (d.run db past).1 = said ++ past ∧ ∀ c ∈ said, Says c d := by
  induction d generalizing past with
  | done result => exact ⟨[], rfl, fun c hc => nomatch hc⟩
  | step c next ih =>
      obtain ⟨said, hrun, hsaid⟩ := ih (db past c) (c :: past)
      refine ⟨said ++ [c], ?_, fun b hb => ?_⟩
      · rw [run, hrun, List.append_assoc, List.singleton_append]
      · rcases List.mem_append.1 hb with hb | hb
        · exact .later _ (hsaid b hb)
        · rw [List.mem_singleton.1 hb]
          exact .here

theorem executing_execute (s : Statement) : (execute s).Executing := by
  intro c hc
  cases hc with
  | here => exact ⟨s, rfl⟩
  | later reply h => cases reply <;> cases h

theorem executing_done (result : Outcome α) : (done result).Executing :=
  fun _ hc => absurd hc (not_says_done _)

theorem executing_lift_bind {x : Outcome α} (h : ∀ a, x = .ok a → (f a).Executing) :
    (liftM x >>= f).Executing := by
  intro c hc
  obtain ⟨a, ha, hf⟩ := says_lift_bind.1 hc
  exact h a ha c hf

theorem Executing.bind (hd : d.Executing) (hf : ∀ a, (f a).Executing) : (d >>= f).Executing := by
  intro c hc
  rcases says_bind hc with h | ⟨a, h⟩
  · exact hd c h
  · exact hf a c h

/-! ## Transactions -/

/-- The ways in which a transaction is taken back after a failure: there are two rollbacks, and what
comes of the second one says whether the connection is given back. -/
inductive TakenBack (db : Database) (said : List Command) (e : Failure) :
    List Command × Outcome α → Prop where
  /-- Both rollbacks are taken, and the failure is what is left. -/
  | undone (h : db said .rollback ≠ none) (h' : db (.rollback :: said) .rollback ≠ none) :
      TakenBack db said e (.release :: .rollback :: .rollback :: said, .error e)
  /-- The first rollback fails, which is the failure that is left. -/
  | retried (h : db said .rollback = none) (h' : db (.rollback :: said) .rollback ≠ none) :
      TakenBack db said e (.release :: .rollback :: .rollback :: said, breakOff .storeFailure)
  /-- The second rollback fails, and the connection is not given back. -/
  | kept (h : db (.rollback :: said) .rollback = none) :
      TakenBack db said e (.rollback :: .rollback :: said, breakOff .storeFailure)

theorem takenBack_finish (e : Failure) (db : Database) (said : List Command) :
    TakenBack db said e ((finish (.error e) : Dialogue α).run db said) := by
  rw [finish, bind_eq, run_bind, run_attempt]
  cases hfirst : db said .rollback <;> cases hsecond : db (.rollback :: said) .rollback <;>
    simp only [ask, run, hfirst, hsecond, bind_eq, bind]
  case none.none | some.none => exact .kept hsecond
  case none.some => exact .retried hfirst (by simp [hsecond])
  case some.some => exact .undone (by simp [hfirst]) (by simp [hsecond])

/-- A property of what ends in a failure, and of what asks for a rollback or gives a connection back
before it, is one of every transaction that is taken back. -/
theorem finish_error_induction {P : Dialogue α → Prop} (error : ∀ e, P (done (.error e)))
    (step : ∀ c next, c = .rollback ∨ c = .release → (∀ reply, P (next reply)) → P (step c next))
    (e : Failure) : P (finish (.error e)) := by
  have hrelease (f : Failure) : P (Dialogue.step .release fun _ => done (.error f)) :=
    step _ _ (.inr rfl) fun _ => error f
  refine step _ _ (.inl rfl) fun first => ?_
  cases first with
  | none =>
      refine step _ _ (.inl rfl) fun second => ?_
      cases second with
      | none => exact error _
      | some _ => exact hrelease _
  | some _ =>
      refine step _ _ (.inl rfl) fun second => ?_
      cases second with
      | none => exact error _
      | some _ => exact hrelease e

/-- How a transaction ends: with its body, with the commit, or before it has begun. -/
theorem run_transaction (d : Dialogue α) (db : Database) (past : List Command) :
    d.transaction.run db past =
      match db past .connect, d.run db (.connect :: past) with
      | none, _ => (.connect :: past, breakOff .storeFailure)
      | some _, (said, .error e) => (finish (.error e)).run db said
      | some _, (said, .ok a) =>
        match db said .commit with
        | none => (finish (breakOff .storeFailure)).run db (.commit :: said)
        | some _ => (.release :: .commit :: said, .ok a) := by
  rw [transaction, bind_eq, run_bind]
  simp only [ask, run]
  cases hconnect : db past .connect with
  | none => rfl
  | some rows =>
      simp only [run]
      rw [bind_eq, run_bind, run_attempt, bind_eq, run_bind]
      rcases hbody : d.run db (.connect :: past) with ⟨said, e | a⟩
      · rfl
      · simp only [bind_eq, bind, run]
        cases hcommit : db said .commit with
        | none => rfl
        | some rows => rfl

/-- The commands after a connection was taken are statements to be executed. -/
def Worked (past said : List Command) : Prop :=
  ∃ statements : List Command, said = statements ++ .connect :: past ∧
    ∀ c ∈ statements, ∃ s, c = .execute s

/-- The ways in which an operation ends that is one transaction. Only one of them has a result, and
only that one has a commit that the database took. -/
inductive Atomic (db : Database) (past : List Command) (Q : Transcript → α → Prop) :
    List Command × Outcome α → Prop where
  /-- It is refused before the transaction begins, and no command is given. -/
  | refused (e : Failure) : Atomic db past Q (past, .error e)
  /-- There is no connection, and the transaction does not begin. -/
  | unopened (e : Failure) (h : db past .connect = none) :
      Atomic db past Q (.connect :: past, .error e)
  /-- It fails after some statements, which are rolled back. -/
  | rolledBack (said : List Command) (e : Failure) (h : Worked past said)
      {result : List Command × Outcome α} (hback : TakenBack db said e result) :
      Atomic db past Q result
  /-- The database does not take the commit, and the statements are rolled back. -/
  | uncommitted (said : List Command) (e : Failure) (h : Worked past said)
      (hcommit : db said .commit = none) {result : List Command × Outcome α}
      (hback : TakenBack db (.commit :: said) e result) : Atomic db past Q result
  /-- It is committed after the last statement of its transcript. -/
  | committed (said : List Command) (a : α) (t : Transcript) (rows : List Row)
      (ht : t.Follows db (.connect :: past) said) (hcommit : db said .commit = some rows)
      (hQ : Q t a) : Atomic db past Q (.release :: .commit :: said, .ok a)

/-- **A transaction is atomic**, whatever the database replies to its statements. -/
theorem atomic_transaction (hd : d.Executing) (hQ : d.Ensures Q) (db : Database)
    (past : List Command) : Atomic db past Q (d.transaction.run db past) := by
  obtain ⟨statements, hsaid, hstatements⟩ := exists_said d db (.connect :: past)
  have hworked : Worked past (d.run db (.connect :: past)).1 :=
    ⟨statements, hsaid, fun c hc => hd c (hstatements c hc)⟩
  rw [run_transaction]
  cases hconnect : db past .connect with
  | none => exact .unopened _ hconnect
  | some rows =>
      rcases hbody : d.run db (.connect :: past) with ⟨said, e | a⟩
      · rw [hbody] at hworked
        exact .rolledBack said e hworked (takenBack_finish e db said)
      · rw [hbody] at hworked
        obtain ⟨t, ht, hresult⟩ := hQ _ _ _ _ hbody
        cases hcommit : db said .commit with
        | none =>
            simp only [hcommit]
            exact .uncommitted said _ hworked hcommit (takenBack_finish _ db _)
        | some rows =>
            simp only [hcommit]
            exact .committed said a t rows ht hcommit hresult

/-- What is checked before a transaction is refused without a command. -/
theorem atomic_lift_bind {x : Outcome α}
    (h : ∀ a, x = .ok a → Atomic db past R ((f a).run db past)) :
    Atomic db past R ((liftM x >>= f).run db past) := by
  cases x with
  | ok a => exact h a rfl
  | error e => exact .refused e

end Dialogue

end Warden
