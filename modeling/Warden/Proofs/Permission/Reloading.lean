import Mathlib.Logic.Function.Basic
import Warden.Proofs.Permission.Loading

/-! # Rules that are changed and read at the same time

Several calls may change the rules at the same time. Each one commits its change and then loads the
rules anew (`Snapshot.reloading`), and other calls may go on between any two of its commands. Only
one call at a time may load the rules: it takes a lock before it reads them, and gives it back when
they are published.

**`Reloading`** is where the store, the snapshot, the lock and all calls stand, **`Reloading.Step`**
what one call does next, and **`Reloading.Run`** what any number of calls do in any order. A call
that nobody comes between does what it does alone, where it goes from the snapshot in force to its
result by `Snapshot.reload` (`Run.exists_answer`). -/

namespace Warden

/-! ## Calls at the same time -/

/-- How far a call has come. -/
inductive Progress where
  /-- The rules are being changed, and this is left to be done. -/
  | changing (d : Dialogue Unit)
  /-- The rules are changed, and the lock is waited for. -/
  | waiting
  /-- The lock is held, the rules are being read, and this is left to be done. -/
  | loading (d : Dialogue (Snapshot → Snapshot))
  /-- The lock is held, and the rules are published. -/
  | published
  /-- The call has ended with a result. -/
  | completed
  /-- The call has failed, or was given up. -/
  | failed

namespace Progress

/-- The call holds the lock. -/
def holds : Progress → Bool
  | loading _ | published => true
  | _ => false

/-- The call has taken the lock, and has not failed. -/
def begun : Progress → Bool
  | loading _ | published | completed => true
  | _ => false

/-- The rules have been published. -/
def ended : Progress → Bool
  | published | completed => true
  | _ => false

theorem begun_of_ended {p : Progress} (h : p.ended = true) : p.begun = true := by
  cases p with
  | published | completed => rfl
  | _ => cases h

/-- The change has not been committed: it gives no result without a commit, or it has failed. -/
def Uncommitted : Progress → Prop
  | changing d => d.Commits
  | failed => True
  | _ => False

end Progress

/-- Where the store, the snapshot and all calls stand. -/
structure Reloading (ι : Type) where
  /-- The rules that are committed. -/
  store : List Permission
  /-- The snapshot in force. -/
  snapshot : Snapshot
  /-- The call that holds the lock. -/
  holder : Option ι
  /-- How far each call has come. -/
  progress : ι → Progress

namespace Reloading

variable {ι : Type}

/-- What happens next. -/
inductive Event (ι : Type) where
  /-- A call that changes the rules gives a command, and has a reply. -/
  | changes (i : ι) (c : Command) (reply : Reply)
  /-- A call has changed the rules, and goes on to wait for the lock. -/
  | waits (i : ι)
  /-- A call takes the lock. -/
  | takes (i : ι)
  /-- A call that reads the rules gives a command, and has a reply. -/
  | loads (i : ι) (c : Command) (reply : Reply)
  /-- A call publishes a snapshot of the rules that it has read. -/
  | publishes (i : ι) (s : Snapshot)
  /-- A call gives the lock back and ends. -/
  | releases (i : ι)
  /-- A call fails, or is given up. -/
  | fails (i : ι)

/-- The call has got a commit of its change taken. -/
def Event.Commits (e : Event ι) (i : ι) : Prop :=
  ∃ rows, e = .changes i .commit (some rows)

/-- The snapshot that is published. -/
def Event.snapshot? : Event ι → Option Snapshot
  | publishes _ s => some s
  | _ => none

variable [DecidableEq ι] {start s t : Reloading ι} {e : Event ι} {es : List (Event ι)}
  {i j : ι}

/-- What one call does next. Nothing is assumed of the replies to a change, and a commit of it may
make any rules the committed ones. A call that asks for all rules is told those that are committed,
in some order. -/
inductive Step : Reloading ι → Event ι → Reloading ι → Prop where
  /-- A change goes on with the reply to its next command. -/
  | change {s : Reloading ι} {i : ι} {c : Command} {next : Reply → Dialogue Unit} (reply : Reply)
      (store : List Permission) (hi : s.progress i = .changing (.step c next))
      (hstore : store = s.store ∨ c = .commit ∧ reply.isSome = true) :
      Step s (.changes i c reply)
        { s with store, progress := Function.update s.progress i (.changing (next reply)) }
  /-- A change that has ended well is followed by the reading of the rules. -/
  | wait {s : Reloading ι} {i : ι} (hi : s.progress i = .changing (.done (.ok ()))) :
      Step s (.waits i) { s with progress := Function.update s.progress i .waiting }
  /-- The lock is free and is taken, and the rules are to be read. -/
  | take {s : Reloading ι} {i : ι} (hi : s.progress i = .waiting) (hfree : s.holder = none) :
      Step s (.takes i)
        { s with
          holder := some i
          progress := Function.update s.progress i (.loading Snapshot.reloading) }
  /-- The reading goes on with the reply to its next command. -/
  | load {s : Reloading ι} {i : ι} {c : Command} {next : Reply → Dialogue (Snapshot → Snapshot)}
      (reply : Reply) (hi : s.progress i = .loading (.step c next))
      (hreply : ∀ rows, c = .execute .permissions → reply = some rows →
        ∃ ps : List Permission, ps.Perm s.store ∧ rows = ps.map Permission.toRow) :
      Step s (.loads i c reply)
        { s with progress := Function.update s.progress i (.loading (next reply)) }
  /-- The rules that were read are published as the snapshot after the one in force. -/
  | publish {s : Reloading ι} {i : ι} {next : Snapshot → Snapshot}
      (hi : s.progress i = .loading (.done (.ok next))) :
      Step s (.publishes i (next s.snapshot))
        { s with
          snapshot := next s.snapshot
          progress := Function.update s.progress i .published }
  /-- The lock is given back. -/
  | release {s : Reloading ι} {i : ι} (hi : s.progress i = .published) :
      Step s (.releases i)
        { s with holder := none, progress := Function.update s.progress i .completed }
  /-- A call ends before it holds the lock. -/
  | fail {s : Reloading ι} {i : ι}
      (hi : s.progress i = .waiting ∨ ∃ d, s.progress i = .changing d) :
      Step s (.fails i) { s with progress := Function.update s.progress i .failed }
  /-- A call that holds the lock gives it back without anything being published. -/
  | abandon {s : Reloading ι} {i : ι} {d : Dialogue (Snapshot → Snapshot)}
      (hi : s.progress i = .loading d) :
      Step s (.fails i) { s with holder := none, progress := Function.update s.progress i .failed }

/-- What any number of calls do in any order. -/
inductive Run (start : Reloading ι) : List (Event ι) → Reloading ι → Prop where
  /-- Nothing has happened. -/
  | nil : Run start [] start
  /-- One more thing has happened. -/
  | snoc {es : List (Event ι)} {s t : Reloading ι} {e : Event ι} (h : Run start es s)
      (he : Step s e t) : Run start (es ++ [e]) t

/-- Every call is still to change the rules, and the lock is free. -/
structure Start (s : Reloading ι) : Prop where
  /-- The lock is free. -/
  free : s.holder = none
  /-- Every call is at its beginning. -/
  changing : ∀ i, ∃ x call, s.progress i = .changing (RuleCall.change x call)

/-! ## One call at a time reads and publishes -/

/-- Only the call that holds the lock reads and publishes. -/
def Exclusive (s : Reloading ι) : Prop :=
  ∀ j, (s.progress j).holds = true → s.holder = some j

omit [DecidableEq ι] in
theorem Start.exclusive (h : start.Start) : start.Exclusive := by
  intro j hj
  obtain ⟨x, call, hcall⟩ := h.changing j
  rw [hcall] at hj
  cases hj

theorem Exclusive.step (h : s.Exclusive) (he : Step s e t) : t.Exclusive := by
  intro j hj
  cases he with
  | @change i | @wait i | @fail i =>
      obtain rfl | hne := eq_or_ne j i
      · simp [Progress.holds] at hj
      · exact h j (by simpa [hne] using hj)
  | @take i _ hfree =>
      obtain rfl | hne := eq_or_ne j i
      · rfl
      · have hholder := h j (by simpa [hne] using hj)
        rw [hfree] at hholder
        cases hholder
  | @load i _ _ _ hi | @publish i _ hi =>
      obtain rfl | hne := eq_or_ne j i
      · exact h j (by rw [hi]; rfl)
      · exact h j (by simpa [hne] using hj)
  | @release i hi | @abandon i _ hi =>
      -- nobody else held the lock
      obtain rfl | hne := eq_or_ne j i
      · simp [Progress.holds] at hj
      · have hholder := h i (by rw [hi]; rfl)
        rw [h j (by simpa [hne] using hj)] at hholder
        exact absurd (Option.some.inj hholder) hne

theorem Run.exclusive (hstart : start.Start) (h : Run start es s) : s.Exclusive := by
  induction h with
  | nil => exact hstart.exclusive
  | snoc _ he ih => exact ih.step he

/-! ## A call that nobody comes between -/

section Alone

variable {tables : Tables} {past said : List Command}

/-- A change that is led on tables is a part of a run. -/
theorem Run.exists_change {d : Dialogue Unit} {result : Outcome Unit} (h : Run start es s)
    (hi : s.progress i = .changing d) (hstore : s.store = tables.stored past)
    (hrun : d.run tables.database past = (said, result)) :
    ∃ es t, Run start es t ∧
      t.progress = Function.update s.progress i (.changing (.done result)) ∧
      t.store = tables.stored said ∧ t.snapshot = s.snapshot ∧ t.holder = s.holder := by
  induction d generalizing es s past with
  | done r =>
      obtain ⟨rfl, rfl⟩ := Prod.mk.inj hrun
      exact ⟨es, s, h, (Function.update_eq_self_iff.2 hi.symm).symm, hstore, rfl, rfl⟩
  | step c next ih =>
      -- what is committed changes by a commit alone
      have hcommitted : tables.stored (c :: past) = s.store ∨
          c = .commit ∧ (tables.database past c).isSome = true := by
        rw [hstore]
        cases c with
        | commit => exact .inr ⟨rfl, rfl⟩
        | execute q => exact .inl (Ledger.committed_after_execute _ q)
        | _ => exact .inl rfl
      obtain ⟨es, t, ht, hprogress, hrest⟩ :=
        ih _ (h.snoc (.change (tables.database past c) _ hi hcommitted)) (Function.update_self ..)
          rfl hrun
      rw [Function.update_idem] at hprogress
      exact ⟨es, t, ht, hprogress, hrest⟩

/-- Between transactions, asking for all rules and ending a transaction change nothing. -/
theorem ledger_cons_of_settled (hsettled : tables.Settled past) {c : Command}
    (hc : ∀ q, c = .execute q → q = .permissions) :
    tables.ledger (c :: past) = tables.ledger past := by
  rw [Tables.Settled] at hsettled
  rw [Tables.ledger_cons]
  cases c with
  | execute q => rw [hc q rfl]; rfl
  | connect | rollback | release => exact congrArg (Ledger.mk _) hsettled.symm
  | commit => exact congrArg (Ledger.mk · _) hsettled
  | _ => rfl

/-- A reading that is led on tables is a part of a run. -/
theorem Run.exists_load {d : Dialogue (Snapshot → Snapshot)}
    {result : Outcome (Snapshot → Snapshot)}
    (h : Run start es s) (hi : s.progress i = .loading d) (hstore : s.store = tables.stored past)
    (hsettled : tables.Settled past)
    (hd : ∀ q, Dialogue.Says (.execute q) d → q = .permissions)
    (hrun : d.run tables.database past = (said, result)) :
    ∃ es t, Run start es t ∧
      t.progress = Function.update s.progress i (.loading (.done result)) ∧
      t.store = tables.stored said ∧ t.snapshot = s.snapshot ∧ t.holder = s.holder := by
  induction d generalizing es s past with
  | done r =>
      obtain ⟨rfl, rfl⟩ := Prod.mk.inj hrun
      exact ⟨es, s, h, (Function.update_eq_self_iff.2 hi.symm).symm, hstore, rfl, rfl⟩
  | step c next ih =>
      -- the reading leaves the table as it is, so it goes on from a store that is the same
      have hledger : tables.ledger (c :: past) = tables.ledger past := by
        refine ledger_cons_of_settled hsettled ?_
        rintro q rfl
        exact hd q .here
      have hreply (rows : List Row) (hc : c = .execute .permissions)
          (hrows : tables.database past c = some rows) :
          ∃ ps : List Permission, ps.Perm s.store ∧ rows = ps.map Permission.toRow := by
        subst hc
        refine ⟨tables.arrange (tables.seen past), ?_, (Option.some.inj hrows).symm⟩
        rw [hstore, Tables.stored, ← hsettled]
        exact tables.perm _
      rw [Tables.Settled, ← hledger] at hsettled
      rw [Tables.stored, ← hledger] at hstore
      obtain ⟨es, t, ht, hprogress, hrest⟩ :=
        ih _ (h.snoc (.load (tables.database past c) hi hreply)) (Function.update_self ..) hstore
          hsettled (fun q hq => hd q (.later _ hq)) hrun
      rw [Function.update_idem] at hprogress
      exact ⟨es, t, ht, hprogress, hrest⟩

/-- After a change that has ended well the lock is taken and all rules are read. -/
theorem Run.exists_read {next : Snapshot → Snapshot} (h : Run start es s)
    (hi : s.progress i = .changing (.done (.ok ()))) (hfree : s.holder = none)
    (hstore : s.store = tables.stored past) (hsettled : tables.Settled past)
    (hrun : Snapshot.reloading.run tables.database past = (said, .ok next)) :
    ∃ es t, Run start es t ∧
      t.progress = Function.update s.progress i (.loading (.done (.ok next))) ∧
      t.store = tables.stored said ∧ t.snapshot = s.snapshot ∧ t.holder = some i := by
  have hpermissions (q : Statement) (hq : Dialogue.Says (.execute q) Snapshot.reloading) :
      q = .permissions := by
    have hread := Dialogue.says_bind_of_silent (fun _ => Dialogue.not_says_done _) hq
    exact Dialogue.says_execute (Dialogue.says_bind_of_silent (fun _ => Dialogue.not_says_done _)
      (Dialogue.says_of_transaction hread))
  have htaken := (h.snoc (.wait hi)).snoc (.take (Function.update_self ..) hfree)
  obtain ⟨es, t, ht, hprogress, hrest⟩ :=
    htaken.exists_load (Function.update_self ..) hstore hsettled hpermissions hrun
  rw [Function.update_idem, Function.update_idem] at hprogress
  exact ⟨es, t, ht, hprogress, hrest⟩

/-- The rules that were read are published, and the lock is given back. -/
theorem Run.exists_publish {next : Snapshot → Snapshot} (h : Run start es s)
    (hi : s.progress i = .loading (.done (.ok next))) :
    ∃ es t, Run start es t ∧ t.progress = Function.update s.progress i .completed ∧
      t.store = s.store ∧ t.snapshot = next s.snapshot ∧ t.holder = none := by
  have hreleased := (h.snoc (.publish hi)).snoc (.release (Function.update_self ..))
  exact ⟨_, _, hreleased, Function.update_idem .., rfl, rfl, rfl⟩

omit [DecidableEq ι] in
/-- A change that has ended well leaves nothing that is not committed. -/
theorem settled_of_run_change {x : Context} {call : RuleCall}
    (h : (call.change x).run tables.database past = (said, .ok ())) : tables.Settled said := by
  obtain ⟨_, d, -, h⟩ := Dialogue.run_bind_eq_ok.1 h
  obtain ⟨-, -, -, hsettled⟩ := Tables.run_of_transaction_ok h
  exact hsettled

/-- **A call that nobody comes between ends in a run as it does alone**: its change is in the store,
and the snapshot that is its result is in force. -/
theorem Run.exists_answer {x : Context} {call : RuleCall} {next : Snapshot}
    (hrun : Run start es s) (hi : s.progress i = .changing (call.change x))
    (hfree : s.holder = none) (hsnapshot : s.snapshot = x.snapshot)
    (hstore : s.store = tables.stored past)
    (h : (call.answer x).run tables.database past = (said, .ok next)) :
    ∃ es t, Run start es t ∧ t.progress = Function.update s.progress i .completed ∧
      t.store = tables.stored said ∧ t.snapshot = next ∧ t.holder = none := by
  rw [call.answer_eq x] at h
  obtain ⟨between, _, hchange, hreload⟩ := Dialogue.run_bind_eq_ok.1 h
  obtain ⟨_, publish, hload, hnext⟩ := Dialogue.run_bind_eq_ok.1 hreload
  obtain ⟨rfl, hpublish⟩ := Prod.mk.inj hnext
  obtain rfl := Except.ok.inj hpublish
  obtain ⟨_, t, ht, hchanged, htstore, htsnapshot, htholder⟩ := hrun.exists_change hi hstore hchange
  obtain ⟨_, u, hu, hread, hustore, husnapshot, -⟩ := ht.exists_read
    (by rw [hchanged, Function.update_self]) (htholder.trans hfree) htstore
    (settled_of_run_change hchange) hload
  obtain ⟨es, v, hv, hdone, hvstore, hvsnapshot, hvholder⟩ :=
    hu.exists_publish (by rw [hread, Function.update_self])
  refine ⟨es, v, hv, ?_, hvstore.trans hustore, ?_, hvholder⟩
  · rw [hdone, hread, hchanged, Function.update_idem, Function.update_idem]
  · rw [hvsnapshot, husnapshot, htsnapshot, hsnapshot]

end Alone

end Reloading

end Warden
