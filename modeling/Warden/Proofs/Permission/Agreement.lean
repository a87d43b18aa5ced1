import Warden.Proofs.Database.Tables
import Warden.Proofs.Permission.Keys
import Warden.Proofs.Sample
import Warden.Service.Permissions

/-! # The snapshot agrees with the store

Rules are created, changed and deleted in the table of permissions, and the snapshot is made anew
after each change. **`RuleCall`** is one such call, **`Tables.Reached`** what comes of any number of
calls after the rules were first loaded, when the database answers as tables do.

One call adds a rule under a new key, changes the parts of rules that are not their key, or removes
rules (**`Permission.Altered`**); so keys stay distinct, and the snapshot that is published after it
holds what the table holds. A call that fails is rolled back and publishes nothing. The two agree in
whatever is reached (`rules_in_step`). -/

namespace Warden

/-! ## Calls -/

/-- A call that changes the rules. -/
inductive RuleCall where
  /-- A rule is created under an identifier. -/
  | create (id : Uuid) (i : PermissionInput)
  /-- Parts of a rule are changed, each under its name. -/
  | update (id : Uuid) (changes : Record)
  /-- A rule is deleted. -/
  | delete (id : Uuid)

/-- The call as it is answered; its result is the next snapshot. -/
def RuleCall.answer (x : Context) : RuleCall → Dialogue Snapshot
  | .create id i => do
    return (← x.createPermission id i).2
  | .update id changes => do
    x.checkAdmin
    let parts ← PermissionPart.readChanges changes
    return (← x.updatePermission id parts).2
  | .delete id => x.deletePermission id

/-- A call with who makes it, when, and what the rules are checked against. -/
structure RuleRequest where
  /-- The collections. -/
  reader : FilterReader
  /-- Who makes the call. -/
  caller : Caller
  /-- The time of the call. -/
  now : DateTime
  /-- The call. -/
  call : RuleCall

/-! ## What a call does to the rules -/

namespace Permission

/-- What a call that is answered does to the rules in the table. -/
inductive Altered (rules : List Permission) : List Permission → Prop where
  /-- A rule that can be read back is added under a new key. -/
  | added (p : Permission) (hp : p.Readable)
      (hnew : ∀ q ∈ rules, q.isFor p.role p.collection p.action = false) :
      Altered rules (rules ++ [p])
  /-- Rules get the parts of one that can be read back. -/
  | changed (p : Permission) (hp : p.Readable) : Altered rules (p.changed rules)
  /-- Rules are removed. -/
  | removed (id : Uuid) : Altered rules (Permission.without id rules)

variable {rules next : List Permission}

/-- Rules that have been checked can be read back. -/
theorem readable_of_check {p : Permission} {reader : FilterReader} (h : p.check reader = .ok ()) :
    p.Readable := by
  obtain ⟨_, -, h⟩ := Outcome.bind_eq_ok.1 h
  obtain ⟨_, hfields, -⟩ := Outcome.bind_eq_ok.1 h
  exact readable_of_checkFields hfields

theorem sameKey_asRead (p q : Permission) : p.asRead.sameKey q.asRead = p.sameKey q := by
  obtain ⟨-, hrole, hcollection, haction⟩ := asRead_keys p
  rw [sameKey, isFor_asRead, hrole, hcollection, haction]
  rfl

/-- Keys stay distinct. -/
theorem Altered.keysDistinct (h : Altered rules next) (hrules : KeysDistinct rules) :
    KeysDistinct next := by
  cases h with
  | added p _ hnew => exact hrules.append_singleton hnew
  | changed p _ =>
      refine hrules.map fun q r => ?_
      by_cases hq : q.id = p.id <;> by_cases hr : r.id = p.id <;>
        simp only [hq, hr, if_true, if_false] <;> rfl
  | removed id => exact hrules.filter _

/-- Whether a rule can be read back depends on its field paths. -/
theorem readable_withParts {p : Permission} (hp : p.Readable) (q : Permission) :
    (q.withParts p).Readable := by
  rw [Readable, ofRow_toRow] at hp ⊢
  obtain ⟨r, hr⟩ := hp
  obtain ⟨fields, hfields, -⟩ := Outcome.bind_eq_ok.1 hr
  exact ⟨_, Outcome.bind_eq_ok.2 ⟨fields, hfields, rfl⟩⟩

/-- Rules can still be read back. -/
theorem Altered.readable (h : Altered rules next) (hrules : ∀ p ∈ rules, p.Readable) :
    ∀ p ∈ next, p.Readable := by
  cases h with
  | added p hp _ =>
      intro q hq
      rcases List.mem_append.1 hq with hq | hq
      · exact hrules q hq
      · rwa [List.mem_singleton.1 hq]
  | changed p hp =>
      intro q hq
      obtain ⟨r, hr, rfl⟩ := List.mem_map.1 hq
      by_cases hid : r.id = p.id
      · rw [if_pos hid]
        exact readable_withParts hp r
      · rw [if_neg hid]
        exact hrules r hr
  | removed id => exact fun q hq => hrules q (List.mem_filter.1 hq).1

end Permission

/-! ## Transactions on the rules -/

/-- To load the rules anew is to read them in a transaction and to publish them. -/
theorem Snapshot.reload_eq (s : Snapshot) :
    s.reload = Permission.fetchAll.transaction >>= fun ps => pure (s.publish ps) :=
  Dialogue.bind_assoc _ _ _

namespace Tables

variable {t : Tables} {past said : List Command} {x : Context}

/-- The rules that are stored after some commands. -/
def stored (t : Tables) (past : List Command) : List Permission :=
  (t.ledger past).committed

/-- The rules that can be seen after some commands. -/
def seen (t : Tables) (past : List Command) : List Permission :=
  (t.ledger past).working

theorem run_fetchRole (id : Uuid) : (Role.fetch? id).run t.database past =
    (.execute (.role id) :: past, .ok (t.roles.filter (·.id = id)).head?) := by
  show (_, Role.ofFirst? ((t.roles.filter (·.id = id)).map Role.toRow)) = _
  rw [Role.ofFirst?_toRow]

theorem run_fetch (hreadable : ∀ p ∈ t.seen past, p.Readable) (id : Uuid) :
    (Permission.fetch? id).run t.database past = (.execute (.permission id) :: past,
      .ok (((t.seen past).filter (·.id = id)).head?.map Permission.asRead)) := by
  show (_, Permission.ofFirst? (((t.seen past).filter (·.id = id)).map Permission.toRow)) = _
  rw [Permission.ofFirst?_toRow fun p hp => hreadable p (List.mem_filter.1 hp).1]

theorem run_fetchFor (hreadable : ∀ p ∈ t.seen past, p.Readable) (role : Uuid)
    (collection : String) (action : Action) :
    (Permission.fetchFor? role collection action).run t.database past =
      (.execute (.permissionFor role collection action) :: past,
        .ok (((t.seen past).filter (·.isFor role collection action)).head?.map
          Permission.asRead)) := by
  show (_, Permission.ofFirst?
    (((t.seen past).filter (·.isFor role collection action)).map Permission.toRow)) = _
  rw [Permission.ofFirst?_toRow fun p hp => hreadable p (List.mem_filter.1 hp).1]

/-- A rule is added if its key is new. -/
theorem altered_of_addPermission {p : Permission} (hp : p.Readable)
    (hreadable : ∀ q ∈ t.seen past, q.Readable)
    (h : (Context.addPermission p).run t.database past = (said, .ok ())) :
    Permission.Altered (t.seen past) (t.seen said) := by
  obtain ⟨_, role, hrole, h⟩ := Dialogue.run_bind_eq_ok.1 h
  rw [run_fetchRole] at hrole
  obtain ⟨rfl, -⟩ := Prod.mk.inj hrole
  cases role with
  | none => cases h
  | some role =>
      obtain ⟨_, found, hfound, h⟩ := Dialogue.run_bind_eq_ok.1 h
      have hreadable' : ∀ q ∈ t.seen (.execute (.role p.role) :: past), q.Readable := hreadable
      rw [run_fetchFor hreadable'] at hfound
      obtain ⟨rfl, hrules⟩ := Prod.mk.inj hfound
      cases found with
      | some _ => cases h
      | none =>
          cases h
          refine .added p hp fun q hq => ?_
          have hnone := Option.map_eq_none_iff.1 (Except.ok.inj hrules)
          rw [List.head?_eq_none_iff, List.filter_eq_nil_iff] at hnone
          exact Bool.not_eq_true _ ▸ hnone q hq

/-- A rule that is changed gets parts that have been checked. -/
theorem altered_of_changePermission {id : Uuid} {changes : List (PermissionPart × Value)}
    {p : Permission} (hreadable : ∀ q ∈ t.seen past, q.Readable)
    (h : (x.changePermission id changes).run t.database past = (said, .ok p)) :
    Permission.Altered (t.seen past) (t.seen said) := by
  obtain ⟨_, found, hfound, h⟩ := Dialogue.run_bind_eq_ok.1 h
  rw [run_fetch hreadable] at hfound
  obtain ⟨rfl, -⟩ := Prod.mk.inj hfound
  cases found with
  | none => cases h
  | some q =>
      obtain ⟨_, _, hcheck, h⟩ := Dialogue.run_bind_eq_ok.1 h
      rw [Dialogue.run_lift] at hcheck
      obtain ⟨rfl, hvalid⟩ := Prod.mk.inj hcheck
      cases h
      exact .changed _ (Permission.readable_of_check hvalid)

/-- A rule that is removed is gone. -/
theorem altered_of_removePermission {id : Uuid} (hreadable : ∀ q ∈ t.seen past, q.Readable)
    (h : (Context.removePermission id).run t.database past = (said, .ok ())) :
    Permission.Altered (t.seen past) (t.seen said) := by
  obtain ⟨_, found, hfound, h⟩ := Dialogue.run_bind_eq_ok.1 h
  rw [run_fetch hreadable] at hfound
  obtain ⟨rfl, -⟩ := Prod.mk.inj hfound
  cases found with
  | none => cases h
  | some q =>
      cases h
      exact .removed id

/-! ## How a call ends -/

/-- A call ends with a failure that has left the table as it was, or with the rules of the table
published as they stand. -/
inductive Ends {α : Type} (t : Tables) (past : List Command) (s : Snapshot) (next : α → Snapshot) :
    List Command × Outcome α → Prop where
  /-- It fails. -/
  | failed (said : List Command) (e : Failure) (hstored : t.stored said = t.stored past)
      (hsettled : t.Settled said) : Ends t past s next (said, .error e)
  /-- The rules are altered and published. -/
  | published (said : List Command) (a : α)
      (haltered : Permission.Altered (t.stored past) (t.stored said)) (hsettled : t.Settled said)
      (hnext : next a = s.publish ((t.arrange (t.stored said)).map Permission.asRead)) :
      Ends t past s next (said, .ok a)

variable {α β : Type} {s : Snapshot} {next : α → Snapshot}

/-- All rules are read in a transaction of its own, which changes nothing. -/
theorem run_reload (hreadable : ∀ p ∈ t.stored past, p.Readable) :
    ∃ said, s.reload.run t.database past =
        (said, .ok (s.publish ((t.arrange (t.stored past)).map Permission.asRead))) ∧
      t.stored said = t.stored past ∧ t.Settled said := by
  have hall : ∀ p ∈ t.arrange (t.stored past), p.Readable := fun p hp =>
    hreadable p ((t.perm _).mem_iff.1 hp)
  have hfetch : Permission.fetchAll.run t.database (.connect :: past) =
      (.execute .permissions :: .connect :: past,
        .ok ((t.arrange (t.stored past)).map Permission.asRead)) := by
    show (_, ((t.arrange (t.stored past)).map Permission.toRow).mapM Permission.ofRow) = _
    rw [Permission.mapM_ofRow hall]
  have hrun : Permission.fetchAll.transaction.run t.database past =
      (.release :: .commit :: .execute .permissions :: .connect :: past,
        .ok ((t.arrange (t.stored past)).map Permission.asRead)) := by
    rw [run_transaction, hfetch]
  rw [Snapshot.reload_eq]
  exact ⟨_, Dialogue.run_bind_of_ok _ hrun, rfl, rfl⟩

/-- Rules that have been loaded can be read back. -/
theorem readable_of_reload {loaded : Snapshot}
    (h : s.reload.run t.database past = (said, .ok loaded)) :
    ∀ p ∈ t.stored past, p.Readable := by
  rw [Snapshot.reload_eq] at h
  obtain ⟨_, ps, hps, -⟩ := Dialogue.run_bind_eq_ok.1 h
  obtain ⟨_, hfetch, -⟩ := run_of_transaction_ok hps
  have hrows : ((t.arrange (t.stored past)).map Permission.toRow).mapM Permission.ofRow = .ok ps :=
    (Prod.mk.inj hfetch).2
  intro p hp
  exact Permission.readable_of_mapM hrows p ((t.perm _).mem_iff.2 hp)

/-- What is checked before the transaction fails without a command. -/
theorem Ends.lift_bind {γ : Type} {y : Outcome γ} {f : γ → Dialogue α} (hsettled : t.Settled past)
    (h : ∀ a, y = .ok a → Ends t past s next ((f a).run t.database past)) :
    Ends t past s next ((liftM y >>= f).run t.database past) := by
  cases y with
  | ok a => exact h a rfl
  | error e => exact .failed _ e rfl hsettled

/-- A transaction that alters the rules is followed by the rules being published. -/
theorem Ends.transaction {d : Dialogue β} {f : β → Dialogue α} (hd : d.Executing)
    (hreadable : ∀ p ∈ t.stored past, p.Readable)
    (haltered : ∀ b said, d.run t.database (.connect :: past) = (said, .ok b) →
      Permission.Altered (t.seen (.connect :: past)) (t.seen said))
    (hf : ∀ b said after loaded, s.reload.run t.database said = (after, .ok loaded) →
      ∃ a, (f b).run t.database said = (after, .ok a) ∧ next a = loaded) :
    Ends t past s next ((d.transaction >>= f).run t.database past) := by
  rw [Dialogue.bind_eq, Dialogue.run_bind]
  rcases hrun : d.transaction.run t.database past with ⟨between, e | b⟩
  · obtain ⟨hstored, hsettled⟩ := ledger_of_transaction_error hd hrun
    exact .failed between e hstored hsettled
  · obtain ⟨said, hbody, hcommitted, -⟩ := run_of_transaction_ok hrun
    have halter : Permission.Altered (t.stored past) (t.stored between) := by
      rw [stored, stored, hcommitted]
      exact haltered b said hbody
    obtain ⟨after, hreload, hstored, hsettled⟩ :=
      run_reload (s := s) (halter.readable hreadable)
    obtain ⟨a, ha, hnext⟩ := hf b between after _ hreload
    simp only [ha]
    rw [← hstored] at halter hnext
    exact .published after a halter hsettled hnext

/-- The next snapshot alone is made of the result. -/
theorem Ends.get {d : Dialogue α} (h : Ends t past s next (d.run t.database past)) :
    Ends t past s id ((d >>= fun a => pure (next a)).run t.database past) := by
  rw [Dialogue.bind_eq, Dialogue.run_bind]
  rcases hrun : d.run t.database past with ⟨said, e | a⟩
  · rw [hrun] at h
    cases h with
    | failed _ _ hstored hsettled => exact .failed said e hstored hsettled
  · rw [hrun] at h
    cases h with
    | published _ _ haltered hsettled hnext => exact .published said _ haltered hsettled hnext

theorem executing_addPermission (p : Permission) : (Context.addPermission p).Executing := by
  refine Dialogue.Executing.bind ?_ fun role => ?_
  · exact (Dialogue.executing_execute _).bind fun _ => Dialogue.executing_done _
  · cases role with
    | none => exact Dialogue.executing_done _
    | some role =>
        refine Dialogue.Executing.bind ?_ fun found => ?_
        · exact (Dialogue.executing_execute _).bind fun _ => Dialogue.executing_done _
        · cases found with
          | some _ => exact Dialogue.executing_done _
          | none => exact (Dialogue.executing_execute _).bind fun _ => Dialogue.executing_done _

theorem executing_changePermission (id : Uuid) (changes : List (PermissionPart × Value)) :
    (x.changePermission id changes).Executing := by
  refine Dialogue.Executing.bind ?_ fun found => ?_
  · exact (Dialogue.executing_execute _).bind fun _ => Dialogue.executing_done _
  · cases found with
    | none => exact Dialogue.executing_done _
    | some p =>
        refine Dialogue.executing_lift_bind fun _ _ => ?_
        refine Dialogue.Executing.bind ?_ fun _ => Dialogue.executing_done _
        exact (Dialogue.executing_execute _).bind fun _ => Dialogue.executing_done _

theorem executing_removePermission (id : Uuid) : (Context.removePermission id).Executing := by
  refine Dialogue.Executing.bind ?_ fun found => ?_
  · exact (Dialogue.executing_execute _).bind fun _ => Dialogue.executing_done _
  · cases found with
    | none => exact Dialogue.executing_done _
    | some _ => exact (Dialogue.executing_execute _).bind fun _ => Dialogue.executing_done _

/-- **How every call ends**, one case for each kind. -/
theorem ends_answer (call : RuleCall) (hsettled : t.Settled past)
    (hreadable : ∀ p ∈ t.stored past, p.Readable) :
    Ends t past x.snapshot id ((call.answer x).run t.database past) := by
  -- a transaction begins with the rules that are stored
  have hseen : ∀ p ∈ t.seen (.connect :: past), p.Readable := hreadable
  cases call with
  | create id i =>
      refine Ends.get (Ends.lift_bind hsettled fun _ _ =>
        Ends.lift_bind hsettled fun _ hcheck => ?_)
      refine Ends.transaction (executing_addPermission _) hreadable (fun _ _ h => ?_) ?_
      · exact altered_of_addPermission (Permission.readable_of_check hcheck) hseen h
      · intro _ said after loaded h
        exact ⟨_, Dialogue.run_bind_of_ok _ h, rfl⟩
  | update id changes =>
      refine Ends.lift_bind hsettled fun _ _ => Ends.lift_bind hsettled fun parts _ => ?_
      refine Ends.get (Ends.lift_bind hsettled fun _ _ => ?_)
      refine Ends.transaction (executing_changePermission _ _) hreadable (fun _ _ h => ?_) ?_
      · exact altered_of_changePermission hseen h
      · intro p said after loaded h
        exact ⟨_, Dialogue.run_bind_of_ok _ h, rfl⟩
  | delete id =>
      refine Ends.lift_bind hsettled fun _ _ => ?_
      refine Ends.transaction (executing_removePermission _) hreadable (fun _ _ h => ?_) ?_
      · exact altered_of_removePermission hseen h
      · intro _ said after loaded h
        exact ⟨loaded, h, rfl⟩

end Tables

/-! ## Whatever is reached -/

/-- Where the store and the snapshot stand. -/
structure Standing where
  /-- All that was said to the database, the latest first. -/
  past : List Command
  /-- The snapshot in force. -/
  snapshot : Snapshot

namespace Tables

variable {t : Tables} {s : Standing}

/-- Answers a call: what it says is said, and the next snapshot is in force unless the call
fails. -/
def answer (t : Tables) (s : Standing) (r : RuleRequest) : Standing × Outcome Unit :=
  match (r.call.answer ⟨r.reader, s.snapshot, r.caller, r.now⟩).run t.database s.past with
  | (said, .ok next) => (⟨said, next⟩, .ok ())
  | (said, .error e) => (⟨said, s.snapshot⟩, .error e)

/-- What comes of calls after the rules were loaded. -/
inductive Reached (t : Tables) : Standing → Prop where
  /-- The rules have been loaded. -/
  | loaded {s next : Snapshot} {said : List Command}
      (h : s.reload.run t.database [] = (said, .ok next)) : Reached t ⟨said, next⟩
  /-- One more call has been answered. -/
  | answered {s : Standing} (h : Reached t s) (r : RuleRequest) : Reached t (t.answer s r).1

/-- The snapshot holds what the table holds. -/
structure InStep (t : Tables) (s : Standing) : Prop where
  /-- No transaction is open. -/
  settled : t.Settled s.past
  /-- Every rule in the table can be read back. -/
  readable : ∀ p ∈ t.stored s.past, p.Readable
  /-- No two rules in the table have the same key. -/
  distinct : KeysDistinct (t.stored s.past)
  /-- The rules in the snapshot are those in the table, each as often as it is there. -/
  same : s.snapshot.permissions.Perm ((t.stored s.past).map Permission.asRead)
  /-- Under every key the snapshot has the rule that the table has, or none if there is none. -/
  found : ∀ role collection action, s.snapshot.find? role collection action =
    ((t.stored s.past).find? (·.isFor role collection action)).map Permission.asRead

/-- Rules with distinct keys are in step once they are published. -/
theorem inStep_publish {past : List Command} (s : Snapshot) (hsettled : t.Settled past)
    (hreadable : ∀ p ∈ t.stored past, p.Readable) (hdistinct : KeysDistinct (t.stored past)) :
    t.InStep ⟨past, s.publish ((t.arrange (t.stored past)).map Permission.asRead)⟩ := by
  have hperm : ((t.arrange (t.stored past)).map Permission.asRead).Perm
      ((t.stored past).map Permission.asRead) := (t.perm _).map _
  have hread : KeysDistinct ((t.stored past).map Permission.asRead) :=
    hdistinct.map Permission.sameKey_asRead
  have hpublished : (s.publish ((t.arrange (t.stored past)).map Permission.asRead)).permissions =
      (t.arrange (t.stored past)).map Permission.asRead := (hread.perm hperm.symm).firstOfEach_eq
  refine ⟨hsettled, hreadable, hdistinct, ?_, fun role collection action => ?_⟩
  · rw [hpublished]
    exact hperm
  · rw [Snapshot.find?, hpublished, ← hread.find?_perm hperm.symm, List.find?_map]
    congr 2
    funext p
    exact Permission.isFor_asRead p role collection action

/-- One call keeps the two in step, and if it fails, neither has changed. -/
theorem InStep.answer (h : t.InStep s) (r : RuleRequest) :
    t.InStep (t.answer s r).1 ∧ ∀ e, (t.answer s r).2 = .error e →
      t.stored (t.answer s r).1.past = t.stored s.past ∧
        (t.answer s r).1.snapshot = s.snapshot := by
  have hends :=
    ends_answer (x := ⟨r.reader, s.snapshot, r.caller, r.now⟩) r.call h.settled h.readable
  rw [Tables.answer]
  rcases hrun : (r.call.answer ⟨r.reader, s.snapshot, r.caller, r.now⟩).run t.database s.past with
    ⟨said, e | next⟩
  · rw [hrun] at hends
    cases hends with
    | failed _ _ hstored hsettled =>
        refine ⟨⟨hsettled, ?_, ?_, ?_, ?_⟩, fun _ _ => ⟨hstored, rfl⟩⟩
        all_goals simp only [hstored]
        · exact h.readable
        · exact h.distinct
        · exact h.same
        · exact h.found
  · rw [hrun] at hends
    cases hends with
    | published _ _ haltered hsettled hnext =>
        have hreadable := haltered.readable h.readable
        have hdistinct := haltered.keysDistinct h.distinct
        obtain rfl : next = _ := hnext
        exact ⟨inStep_publish s.snapshot hsettled hreadable hdistinct, fun e he => nomatch he⟩

/-- **The store and the snapshot stay in step.** After the rules have been loaded, and any calls by
anyone with any inputs have been answered, the table has one rule for every key at most, and the
snapshot has exactly the rules of the table. A further call that fails changes neither. -/
theorem rules_in_step (hrules : KeysDistinct t.rules) (hs : t.Reached s) :
    t.InStep s ∧ ∀ r e, (t.answer s r).2 = .error e →
      t.stored (t.answer s r).1.past = t.stored s.past ∧
        (t.answer s r).1.snapshot = s.snapshot := by
  have hstep : t.InStep s := by
    induction hs with
    | @loaded s next said h =>
        have hreadable := readable_of_reload h
        obtain ⟨after, hrun, hstored, hsettled⟩ := run_reload (s := s) hreadable
        rw [h] at hrun
        obtain ⟨rfl, hnext⟩ := Prod.mk.inj hrun
        obtain rfl := Except.ok.inj hnext
        rw [← hstored] at hreadable ⊢
        exact inStep_publish s hsettled hreadable (hstored ▸ hrules)
    | answered h r ih => exact (ih.answer r).1
  exact ⟨hstep, fun r => (hstep.answer r).2⟩

/-- The table with the rule by which editors read posts. -/
def sample : Tables where
  roles := [⟨⟨1⟩, "editor", .null, false⟩]
  rules := [Sample.rule .read .null (.record [])]
  arrange := List.reverse
  perm := List.reverse_perm

/-- An administrator's call. -/
def sampleRequest (call : RuleCall) : RuleRequest where
  reader := Sample.reader
  caller := ⟨some ⟨.text "user-1", .text "admin", true, []⟩, none, none, none⟩
  now := Sample.noon
  call := call

/-- After a rule for updates has been created, the table has two rules, and so has the snapshot. -/
theorem rules_in_step_created : KeysDistinct sample.rules ∧
    ∃ s, sample.Reached s ∧ sample.InStep s ∧ (sample.stored s.past).length = 2 := by
  have hrules : KeysDistinct sample.rules := List.pairwise_singleton _ _
  have hloaded := Reached.loaded (t := sample) (s := Snapshot.empty) rfl
  have hcreated := hloaded.answered (sampleRequest (.create ⟨2⟩
    ⟨⟨1⟩, "posts", .update, .null, .null, .record [], .record []⟩))
  refine ⟨hrules, _, hcreated, (rules_in_step hrules hcreated).1, ?_⟩
  decide +kernel

end Tables

end Warden
