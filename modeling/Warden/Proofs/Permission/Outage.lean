import Warden.Proofs.Database.Outage
import Warden.Proofs.Permission.Change

/-! # Changes of rules while commands fail

A call that changes rules has two transactions: the first one changes the rules, and the second one
reads them to be published. Any command of either may fail. What came of a call is one of three:
nothing at all, the change and its publication, or, if the second transaction fails after the first
one was committed, the change alone.

* **`Outage.EndsIn`** lists these ends, and `endsIn_answer` shows that there is no other.
* **`parted_only_after_commit`** is the main statement: only a failure after the commit of the
  change lets the snapshot hold other rules than the store, and **`deleted_rule_stays_in_force`**
  shows that it does. The next call that ends with a result brings the two together again
  (`Sound.inStep_answer`). -/

namespace Warden

/-! ## Calls heed failures -/

/-- The transaction of a call fails as soon as a command does. -/
theorem RuleCall.heeds_body {x : Context} {call : RuleCall} {d : Dialogue Unit}
    (h : call.body x = .ok d) : d.Heeds := by
  cases call with
  | create id i =>
      obtain ⟨_, -, h⟩ := Outcome.bind_eq_ok.1 h
      obtain ⟨_, -, h⟩ := Outcome.bind_eq_ok.1 h
      obtain rfl := Outcome.pure_eq_ok.1 h
      refine (Dialogue.heeds_query _ _).bind fun role => ?_
      cases role with
      | none => exact .done _
      | some role =>
          refine (Dialogue.heeds_query _ _).bind fun found => ?_
          cases found with
          | some _ => exact .done _
          | none => exact Dialogue.heeds_query _ _
  | update id changes =>
      obtain ⟨_, -, h⟩ := Outcome.bind_eq_ok.1 h
      obtain ⟨parts, -, h⟩ := Outcome.bind_eq_ok.1 h
      obtain rfl := Outcome.pure_eq_ok.1 h
      refine Dialogue.Heeds.bind ((Dialogue.heeds_query _ _).bind fun found => ?_) fun _ => .done _
      cases found with
      | none => exact .done _
      | some p =>
          refine Dialogue.heeds_lift_bind fun _ _ => ?_
          exact (Dialogue.heeds_query _ _).bind fun _ => .done _
  | delete id =>
      obtain ⟨_, -, h⟩ := Outcome.bind_eq_ok.1 h
      obtain rfl := Outcome.pure_eq_ok.1 h
      refine (Dialogue.heeds_query _ _).bind fun found => ?_
      cases found with
      | none => exact .done _
      | some _ => exact Dialogue.heeds_query _ _

namespace Outage

variable {o : Outage} {past said : List Command} {x : Context} {call : RuleCall} {s : Snapshot}

/-! ## How a call ends -/

/-- The transaction of a call that ends well adds a rule, changes rules or removes rules. -/
theorem altered_of_body {d : Dialogue Unit} (hbody : call.body x = .ok d)
    (hreadable : ∀ p ∈ o.stored past, p.Readable)
    (h : d.run o.database (.connect :: past) = (said, .ok ())) :
    Permission.Altered (o.stored past) (o.seen said) := by
  -- nothing has failed, so tables in which nothing fails come to the same end
  obtain ⟨said', hrun, hledger⟩ := run_ok (o.tablesAt past) [] (RuleCall.heeds_body hbody)
    (RuleCall.executing_body hbody) rfl rfl rfl h
  have hseen : ∀ p ∈ (o.tablesAt past).seen [], p.Readable := hreadable
  have haltered := RuleCall.altered_of_body hbody hseen hrun
  rwa [Tables.seen, Tables.seen, hledger] at haltered

/-- A command of the reading of the rules fails: to get a connection, the statement, or the end of
the transaction. -/
def StrikesReload (o : Outage) (past : List Command) : Prop :=
  o.fails past .connect = true ∨ o.fails (.connect :: past) (.execute .permissions) = true ∨
    o.fails (.execute .permissions :: .connect :: past) .commit = true

/-- The ways in which the reading of the rules ends. -/
inductive Reloads (o : Outage) (past : List Command) (s : Snapshot) :
    List Command × Outcome Snapshot → Prop where
  /-- A command has failed. -/
  | struck (said : List Command) (e : Failure) (h : o.StrikesReload past)
      (hstored : o.stored said = o.stored past) (hsettled : o.Settled said) :
      Reloads o past s (said, .error e)
  /-- What is stored is published. -/
  | published (said : List Command) (hstored : o.stored said = o.stored past)
      (hsettled : o.Settled said) :
      Reloads o past s
        (said, .ok (s.publish ((o.tables.arrange (o.stored past)).map Permission.asRead)))

/-- Nothing is published if the transaction that reads the rules is taken back. -/
theorem Reloads.of_takenBack {between : List Command} {e : Failure}
    {result : List Command × Outcome (List Permission)} (hstruck : o.StrikesReload past)
    (hstored : o.stored between = o.stored past)
    (hrun : Permission.fetchAll.transaction.run o.database past = result)
    (hback : Dialogue.TakenBack o.database between e result) :
    Reloads o past s (s.reload.run o.database past) := by
  rw [Snapshot.reload_eq, Dialogue.bind_eq, Dialogue.run_bind, hrun]
  obtain ⟨said, outcome⟩ := result
  obtain ⟨f, rfl, hkept, hsettled⟩ := exists_of_takenBack hback
  exact .struck said f hstruck (hkept.trans hstored) hsettled

/-- No rules are read if the statement fails. -/
theorem run_fetchAll_of_fails (h : o.fails past (.execute .permissions) = true) :
    Permission.fetchAll.run o.database past =
      (.execute .permissions :: past, breakOff .storeFailure) := by
  rw [Permission.fetchAll, Dialogue.bind_eq, Dialogue.run_bind, run_execute_of_fails h]
  rfl

/-- Otherwise they are those that the transaction sees. -/
theorem run_fetchAll (h : o.fails past (.execute .permissions) = false)
    (hreadable : ∀ p ∈ o.seen past, p.Readable) :
    Permission.fetchAll.run o.database past = (.execute .permissions :: past,
      .ok ((o.tables.arrange (o.seen past)).map Permission.asRead)) := by
  have hall : ∀ p ∈ o.tables.arrange (o.seen past), p.Readable := fun p hp =>
    hreadable p ((o.tables.perm _).mem_iff.1 hp)
  rw [Permission.fetchAll, Dialogue.run_bind_of_ok _ (run_execute h),
    ← Permission.mapM_ofRow hall]
  rfl

/-- The rules are read and published, unless a command fails. Nothing is changed. -/
theorem reloads (s : Snapshot) (hreadable : ∀ p ∈ o.stored past, p.Readable) :
    Reloads o past s (s.reload.run o.database past) := by
  have hread : o.stored (.execute .permissions :: .connect :: past) = o.stored past :=
    stored_execute _
  have hrun := Dialogue.run_transaction Permission.fetchAll o.database past
  cases hconnect : o.database past .connect with
  | none =>
      -- no transaction was opened
      rw [hconnect] at hrun
      rw [Snapshot.reload_eq, Dialogue.bind_eq, Dialogue.run_bind, hrun]
      exact .struck _ _ (.inl (database_eq_none.1 hconnect)) rfl rfl
  | some rows =>
      rw [hconnect] at hrun
      cases hexec : o.fails (.connect :: past) (.execute .permissions) with
      | true =>
          -- the transaction is rolled back, and nothing was to be committed
          rw [run_fetchAll_of_fails hexec] at hrun
          exact .of_takenBack (.inr (.inl hexec)) hread hrun (Dialogue.takenBack_finish _ _ _)
      | false =>
          rw [run_fetchAll hexec hreadable] at hrun
          cases hcommit : o.database (.execute .permissions :: .connect :: past) .commit with
          | none =>
              simp only [hcommit] at hrun
              have hfails := database_eq_none.1 hcommit
              exact .of_takenBack (.inr (.inr hfails))
                ((stored_commit_of_fails hfails).trans hread) hrun
                (Dialogue.takenBack_finish _ _ _)
          | some rows =>
              simp only [hcommit] at hrun
              rw [Snapshot.reload_eq, Dialogue.run_bind_of_ok _ hrun]
              refine .published _ ((stored_commit (fails_eq_false hcommit)).trans ?_) rfl
              exact seen_execute_permissions

/-- The ways in which a call ends. -/
inductive EndsIn (o : Outage) (past : List Command) (s : Snapshot) :
    List Command × Outcome Snapshot → Prop where
  /-- It fails, and what is stored is as before. -/
  | unchanged (said : List Command) (e : Failure) (hstored : o.stored said = o.stored past)
      (hsettled : o.Settled said) : EndsIn o past s (said, .error e)
  /-- It fails after its change was committed, and nothing is published. -/
  | unpublished (between said : List Command) (e : Failure) (hbetween : between <:+ said)
      (haltered : Permission.Altered (o.stored past) (o.stored between))
      (hstruck : o.StrikesReload between) (hstored : o.stored said = o.stored between)
      (hsettled : o.Settled said) : EndsIn o past s (said, .error e)
  /-- The rules are changed, and what is stored is published. -/
  | published (said : List Command)
      (haltered : Permission.Altered (o.stored past) (o.stored said)) (hsettled : o.Settled said) :
      EndsIn o past s
        (said, .ok (s.publish ((o.tables.arrange (o.stored said)).map Permission.asRead)))

/-- **How every call ends**, whichever of its commands fail. -/
theorem endsIn_answer (x : Context) (call : RuleCall) (hsettled : o.Settled past)
    (hreadable : ∀ p ∈ o.stored past, p.Readable) :
    EndsIn o past x.snapshot ((call.answer x).run o.database past) := by
  rw [call.answer_eq x, RuleCall.change]
  cases hbody : call.body x with
  | error e => exact .unchanged past e rfl hsettled
  | ok d =>
      have hfinished := finished_transaction (o := o) (RuleCall.executing_body hbody) past
      show EndsIn o past x.snapshot
        ((d.transaction >>= fun _ => x.snapshot.reload).run o.database past)
      rw [Dialogue.bind_eq, Dialogue.run_bind]
      rcases hrun : d.transaction.run o.database past with ⟨between, e | u⟩
      · -- the first transaction fails: the rules are not read again
        rw [hrun] at hfinished
        cases hfinished with
        | failed _ _ hstored hsettled => exact .unchanged between e hstored hsettled
      · -- the change is committed, and from here on nothing takes it back
        rw [hrun] at hfinished
        cases hfinished with
        | committed said _ hsaid hstored _ =>
            have haltered := altered_of_body hbody hreadable hsaid
            rw [← hstored] at haltered
            have hreloads := reloads x.snapshot (haltered.readable hreadable)
            have hsuffix : (.release :: .commit :: said) <:+
                (x.snapshot.reload.run o.database (.release :: .commit :: said)).1 :=
              Dialogue.suffix_run _
            simp only
            rcases hreload : x.snapshot.reload.run o.database (.release :: .commit :: said) with
              ⟨after, e | next⟩
            · rw [hreload] at hreloads hsuffix
              cases hreloads with
              | struck _ _ hstruck hkept hsettled =>
                  exact .unpublished _ after e hsuffix haltered hstruck hkept hsettled
            · rw [hreload] at hreloads
              cases hreloads with
              | published _ hkept hsettled =>
                  rw [← hkept] at haltered ⊢
                  exact .published after haltered hsettled

/-! ## The snapshot and the store -/

/-- Answers a call: what it says is said, and the next snapshot is in force unless the call
fails. -/
def answer (o : Outage) (s : Standing) (r : RuleRequest) : Standing × Outcome Unit :=
  match (r.call.answer ⟨r.reader, s.snapshot, r.caller, r.now⟩).run o.database s.past with
  | (said, .ok next) => (⟨said, next⟩, .ok ())
  | (said, .error e) => (⟨said, s.snapshot⟩, .error e)

/-- The rules in the store have distinct keys and can be read back. -/
structure Sound (o : Outage) (past : List Command) : Prop where
  /-- No transaction is open. -/
  settled : o.Settled past
  /-- Every rule can be read back. -/
  readable : ∀ p ∈ o.stored past, p.Readable
  /-- No two rules have the same key. -/
  distinct : KeysDistinct (o.stored past)

/-- The snapshot holds what is stored, with no transaction open. -/
structure InStep (o : Outage) (s : Standing) : Prop where
  /-- No transaction is open. -/
  settled : o.Settled s.past
  /-- The snapshot is in step with tables that hold what is stored. -/
  same : (o.tablesAt s.past).InStep ⟨[], s.snapshot⟩

theorem InStep.sound {s : Standing} (h : o.InStep s) : o.Sound s.past :=
  ⟨h.settled, h.same.readable, h.same.distinct⟩

theorem Sound.altered {between : List Command} (h : o.Sound past) (hsettled : o.Settled said)
    (haltered : Permission.Altered (o.stored past) (o.stored between))
    (hstored : o.stored said = o.stored between) : o.Sound said := by
  refine ⟨hsettled, ?_, ?_⟩
  · rw [hstored]
    exact haltered.readable h.readable
  · rw [hstored]
    exact haltered.keysDistinct h.distinct

/-- The snapshot stays in step if neither it nor what is stored changes. -/
theorem InStep.congr {s t : Standing} (h : o.InStep s) (hsettled : o.Settled t.past)
    (hstored : o.stored t.past = o.stored s.past) (hsnapshot : t.snapshot = s.snapshot) :
    o.InStep t := by
  refine ⟨hsettled, ?_⟩
  rw [tablesAt, hstored, hsnapshot]
  exact h.same

/-- A change was committed, and a command of the reading after it failed. -/
def Unpublished (o : Outage) (past said : List Command) : Prop :=
  ∃ between, between <:+ said ∧ o.StrikesReload between ∧
    Permission.Altered (o.stored past) (o.stored between) ∧ o.stored said = o.stored between

variable {s : Standing}

/-- A call that ends with a result brings the snapshot in step with the store, wherever it stood. -/
theorem Sound.inStep_answer (h : o.Sound s.past) (r : RuleRequest) {u : Unit}
    (hok : (o.answer s r).2 = .ok u) : o.InStep (o.answer s r).1 := by
  have hends := endsIn_answer ⟨r.reader, s.snapshot, r.caller, r.now⟩ r.call h.settled h.readable
  rw [answer] at hok ⊢
  rcases hrun : (r.call.answer ⟨r.reader, s.snapshot, r.caller, r.now⟩).run o.database s.past with
    ⟨said, e | next⟩
  · rw [hrun] at hok
    cases hok
  · rw [hrun] at hends
    cases hends with
    | published _ haltered hsettled =>
        have hsound := h.altered hsettled haltered rfl
        have hnone : (o.tablesAt said).Settled [] := rfl
        exact ⟨hsettled,
          Tables.inStep_publish s.snapshot hnone hsound.readable hsound.distinct⟩

/-- A call that fails leaves the snapshot as it was, and the store too unless its change was
committed. -/
theorem Sound.answer_error (h : o.Sound s.past) (r : RuleRequest) {e : Failure}
    (herror : (o.answer s r).2 = .error e) :
    (o.answer s r).1.snapshot = s.snapshot ∧ o.Settled (o.answer s r).1.past ∧
      (o.stored (o.answer s r).1.past = o.stored s.past ∨
        o.Unpublished s.past (o.answer s r).1.past) := by
  have hends := endsIn_answer ⟨r.reader, s.snapshot, r.caller, r.now⟩ r.call h.settled h.readable
  rw [answer] at herror ⊢
  rcases hrun : (r.call.answer ⟨r.reader, s.snapshot, r.caller, r.now⟩).run o.database s.past with
    ⟨said, e | next⟩
  · rw [hrun] at hends
    cases hends with
    | unchanged _ _ hstored hsettled => exact ⟨rfl, hsettled, .inl hstored⟩
    | unpublished between _ _ hbetween haltered hstruck hstored hsettled =>
        exact ⟨rfl, hsettled, .inr ⟨between, hbetween, hstruck, haltered, hstored⟩⟩
  · rw [hrun] at herror
    cases herror

/-- **The snapshot and the store part in one way only.** Whichever commands fail, a call that ends
with a result leaves the two in step. A call that fails leaves the snapshot as it was, and with it
the store, unless its change was committed and a command of the reading after it failed. -/
theorem parted_only_after_commit (h : o.InStep s) (r : RuleRequest) :
    (∀ u, (o.answer s r).2 = .ok u → o.InStep (o.answer s r).1) ∧
    ∀ e, (o.answer s r).2 = .error e → (o.answer s r).1.snapshot = s.snapshot ∧
      (o.stored (o.answer s r).1.past = o.stored s.past ∧ o.InStep (o.answer s r).1 ∨
        o.Unpublished s.past (o.answer s r).1.past) := by
  refine ⟨fun u hok => h.sound.inStep_answer r hok, fun e herror => ?_⟩
  obtain ⟨hsnapshot, hsettled, hstored | hparted⟩ := h.sound.answer_error r herror
  · exact ⟨hsnapshot, .inl ⟨hstored, h.congr hsettled hstored hsnapshot⟩⟩
  · exact ⟨hsnapshot, .inr hparted⟩

/-- A table with the rule by which editors read posts, in which all rules cannot be read. -/
def unreadable : Outage where
  tables := Tables.sample
  fails := fun _ c =>
    match c with
    | .execute .permissions => true
    | _ => false

/-- The rule has been published. -/
def loaded : Standing where
  past := []
  snapshot := Snapshot.empty.publish (Tables.sample.rules.map Permission.asRead)

theorem inStep_loaded : unreadable.InStep loaded := by
  have hnone : Tables.sample.Settled [] := rfl
  refine ⟨rfl, Tables.inStep_publish Snapshot.empty hnone ?_ ?_⟩
  · exact List.forall_mem_singleton.2 ⟨_, rfl⟩
  · exact List.pairwise_singleton _ _

/-- An administrator deletes the rule, and the reading after it fails. -/
theorem parted_only_after_commit_deleted :
    unreadable.InStep loaded ∧
      ∃ e, (unreadable.answer loaded (Tables.sampleRequest (.delete ⟨1⟩))).2 = .error e ∧
        unreadable.Unpublished [] (unreadable.answer loaded
          (Tables.sampleRequest (.delete ⟨1⟩))).1.past := by
  obtain ⟨-, herror⟩ := parted_only_after_commit inStep_loaded (Tables.sampleRequest (.delete ⟨1⟩))
  obtain ⟨-, ⟨hstored, -⟩ | hparted⟩ := herror (.broken .storeFailure) rfl
  · -- the rule is gone from the store
    cases hstored
  · exact ⟨inStep_loaded, _, rfl, hparted⟩

/-- The store and the snapshot do not always stay in step: a rule that an administrator has deleted
stays in force if the rules that are left cannot be read. -/
theorem deleted_rule_stays_in_force :
    ¬ ∀ (o : Outage) (s : Standing) (r : RuleRequest), o.InStep s → r.caller.isAdmin = true →
      o.InStep (o.answer s r).1 := by
  intro hclaim
  have hstep := hclaim unreadable loaded (Tables.sampleRequest (.delete ⟨1⟩)) inStep_loaded rfl
  have hlength := hstep.same.same.length_eq
  cases hlength

end Outage

end Warden
