import Warden.Proofs.Permission.Agreement

/-! # A change and the reading of the rules after it

All calls that change rules have one form: something is checked, then the rules are changed in one
transaction, and then all rules are read in another one and published (`RuleCall.answer_eq`). The
body of the first transaction is **`RuleCall.body`**, and the call without the reading is
**`RuleCall.change`**. -/

namespace Warden

/-! ## Transactions whose result is not looked at -/

namespace Dialogue

variable {α β : Type}

/-- Nothing is added by giving the result. -/
theorem bind_pure (d : Dialogue α) : bind (fun a => pure a) d = d := by
  induction d with
  | done result => cases result <;> rfl
  | step c next ih => exact congrArg (step c) (funext ih)

/-- Nothing follows a transaction that is taken back. -/
theorem finish_error_bind (e : Failure) (f : α → Dialogue β) :
    finish (.error e) >>= f = finish (.error e) := by
  -- what the first rollback is replied with says which failure is left, and the second, where
  refine congrArg (step .rollback) (funext fun first => ?_)
  cases first with
  | none => exact congrArg (step .rollback) (funext fun second => by cases second <;> rfl)
  | some rows => exact congrArg (step .rollback) (funext fun second => by cases second <;> rfl)

/-- What is made of the result of a transaction can be made in it. -/
theorem transaction_map (d : Dialogue α) (f : α → β) :
    (d >>= fun a => pure (f a)).transaction = d.transaction >>= fun a => pure (f a) := by
  have hcommitted : ((d >>= fun a => pure (f a)) >>= fun b =>
      ask .commit >>= fun _ => pure b).attempt >>= finish =
        ((d >>= fun a => ask .commit >>= fun _ => pure a).attempt >>= finish) >>=
          fun a => pure (f a) := by
    induction d with
    | done result =>
        cases result with
        | error e => exact (finish_error_bind e _).symm
        | ok a =>
            refine congrArg (step .commit) (funext fun reply => ?_)
            cases reply with
            | none => exact (finish_error_bind _ _).symm
            | some rows => rfl
    | step c next ih => exact congrArg (step c) (funext ih)
  refine congrArg (step .connect) (funext fun reply => ?_)
  cases reply with
  | none => rfl
  | some rows => exact hcommitted

end Dialogue

/-! ## The parts of a call -/

namespace RuleCall

/-- The transaction that changes the rules, if the call passes the checks before it. -/
def body (x : Context) : RuleCall → Outcome (Dialogue Unit)
  | create id i => do
    x.checkAdmin
    let p := Permission.ofInput id x.now i
    p.check x.reader
    return Context.addPermission p
  | update id changes => do
    x.checkAdmin
    let parts ← PermissionPart.readChanges changes
    return x.changePermission id parts >>= fun _ => pure ()
  | delete id => do
    x.checkAdmin
    return Context.removePermission id

/-- The call without the reading of the rules after it. -/
def change (x : Context) (call : RuleCall) : Dialogue Unit := do
  let body ← call.body x
  body.transaction

variable {x : Context} {call : RuleCall}

/-- What is given beside the next snapshot is left out again. -/
theorem reload_snd {α β : Type} (d : Dialogue α) (f : α → β) (s : Snapshot) :
    ((d >>= fun a => s.reload >>= fun next => pure (f a, next)) >>= fun r => pure r.2) =
      d >>= fun _ => s.reload := by
  rw [Dialogue.bind_eq, Dialogue.bind_eq d, Dialogue.bind_assoc]
  refine congrArg (Dialogue.bind · d) (funext fun a => ?_)
  exact (Dialogue.bind_assoc _ _ _).trans (Dialogue.bind_pure _)

/-- **A call changes the rules, and then reads all of them.** -/
theorem answer_eq (x : Context) (call : RuleCall) :
    call.answer x = call.change x >>= fun _ => x.snapshot.reload := by
  cases call with
  | create id i =>
      -- the rule that is created is given beside the snapshot
      have hreload := reload_snd (Context.addPermission (.ofInput id x.now i)).transaction
        (fun _ => Permission.ofInput id x.now i) x.snapshot
      rw [answer, change, body, Context.createPermission]
      cases x.checkAdmin with
      | error e => rfl
      | ok u =>
          cases hcheck : (Permission.ofInput id x.now i).check x.reader with
          | error e =>
              simp only [hcheck]
              rfl
          | ok u =>
              simp only [hcheck]
              exact hreload
  | update id changes =>
      rw [answer, change, body]
      cases hadmin : x.checkAdmin with
      | error e => rfl
      | ok u =>
          cases PermissionPart.readChanges changes with
          | error e => rfl
          | ok parts =>
              -- so is the rule that is changed, which the transaction gives
              have hreload := reload_snd (x.changePermission id parts).transaction (fun p => p)
                x.snapshot
              have hdrop := Dialogue.bind_assoc (x.changePermission id parts).transaction
                (fun _ => pure ()) fun _ => x.snapshot.reload
              show (x.updatePermission id parts >>= fun r => pure r.2) =
                (x.changePermission id parts >>= fun _ => pure ()).transaction >>= _
              rw [Dialogue.transaction_map _ fun _ => (), Context.updatePermission, hadmin]
              exact hreload.trans hdrop.symm
  | delete id =>
      rw [answer, change, body, Context.deletePermission]
      cases x.checkAdmin with
      | error e => rfl
      | ok u => rfl

/-- The transaction of a call only executes statements. -/
theorem executing_body {d : Dialogue Unit} (h : call.body x = .ok d) : d.Executing := by
  cases call with
  | create id i =>
      obtain ⟨_, -, h⟩ := Outcome.bind_eq_ok.1 h
      obtain ⟨_, -, h⟩ := Outcome.bind_eq_ok.1 h
      obtain rfl := Outcome.pure_eq_ok.1 h
      exact Tables.executing_addPermission _
  | update id changes =>
      obtain ⟨_, -, h⟩ := Outcome.bind_eq_ok.1 h
      obtain ⟨parts, -, h⟩ := Outcome.bind_eq_ok.1 h
      obtain rfl := Outcome.pure_eq_ok.1 h
      exact (Tables.executing_changePermission id parts).bind fun _ => Dialogue.executing_done _
  | delete id =>
      obtain ⟨_, -, h⟩ := Outcome.bind_eq_ok.1 h
      obtain rfl := Outcome.pure_eq_ok.1 h
      exact Tables.executing_removePermission id

/-- The transaction of a call that ends well adds a rule, changes rules or removes rules. -/
theorem altered_of_body {t : Tables} {past said : List Command} {d : Dialogue Unit}
    (hbody : call.body x = .ok d) (hreadable : ∀ p ∈ t.seen past, p.Readable)
    (h : d.run t.database past = (said, .ok ())) :
    Permission.Altered (t.seen past) (t.seen said) := by
  cases call with
  | create id i =>
      obtain ⟨_, -, hbody⟩ := Outcome.bind_eq_ok.1 hbody
      obtain ⟨_, hcheck, hbody⟩ := Outcome.bind_eq_ok.1 hbody
      obtain rfl := Outcome.pure_eq_ok.1 hbody
      exact Tables.altered_of_addPermission (Permission.readable_of_check hcheck) hreadable h
  | update id changes =>
      obtain ⟨_, -, hbody⟩ := Outcome.bind_eq_ok.1 hbody
      obtain ⟨parts, -, hbody⟩ := Outcome.bind_eq_ok.1 hbody
      obtain rfl := Outcome.pure_eq_ok.1 hbody
      obtain ⟨_, p, hp, hend⟩ := Dialogue.run_bind_eq_ok.1 h
      obtain rfl := (Prod.mk.inj hend).1
      exact Tables.altered_of_changePermission hreadable hp
  | delete id =>
      obtain ⟨_, -, hbody⟩ := Outcome.bind_eq_ok.1 hbody
      obtain rfl := Outcome.pure_eq_ok.1 hbody
      exact Tables.altered_of_removePermission hreadable h

end RuleCall

end Warden
