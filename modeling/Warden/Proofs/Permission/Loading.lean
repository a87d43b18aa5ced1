import Warden.Proofs.Permission.Change

/-! # What is read when all rules are read

All rules are read in one transaction, and a snapshot of them **`Snapshot.Holds`** what the store
held when the rows came. Two properties of dialogues say when that was, whatever the replies: a
change gives no result before its commit is taken (**`Dialogue.Commits`**), and what a reading gives
as a result stands in a reply to it (**`Dialogue.Loads`**). -/

namespace Warden

/-! ## Rules as they are read -/

/-- What is read if all rules of the store are asked for: each of them, in some order. -/
def Permission.Listing (rules read : List Permission) : Prop :=
  ∃ ps : List Permission, ps.Perm rules ∧ (∀ p ∈ ps, p.Readable) ∧ read = ps.map asRead

/-- The snapshot was made of what is read from a store with these rules. -/
def Snapshot.Holds (s : Snapshot) (rules : List Permission) : Prop :=
  ∃ read, Permission.Listing rules read ∧ s.permissions = Snapshot.firstOfEach read

/-- A snapshot of rules with distinct keys has each of them, and no other. -/
theorem Snapshot.Holds.perm {s : Snapshot} {rules : List Permission} (h : s.Holds rules)
    (hdistinct : KeysDistinct rules) : s.permissions.Perm (rules.map Permission.asRead) := by
  obtain ⟨_, ⟨ps, hperm, -, rfl⟩, hs⟩ := h
  have hread : KeysDistinct (ps.map Permission.asRead) :=
    (hdistinct.perm hperm.symm).map Permission.sameKey_asRead
  rw [hs, hread.firstOfEach_eq]
  exact hperm.map _

/-- The rows that say what is read from a store. -/
theorem Permission.listing_of_mapM {rules ps read : List Permission} (hperm : ps.Perm rules)
    (h : (ps.map toRow).mapM ofRow = .ok read) : Listing rules read := by
  have hreadable := readable_of_mapM h
  rw [mapM_ofRow hreadable] at h
  exact ⟨ps, hperm, hreadable, (Except.ok.inj h).symm⟩

/-! ## Dialogues that commit, and dialogues that read all rules -/

namespace Dialogue

variable {α β : Type} {d : Dialogue α}

/-- The dialogue gives a result only after a commit that the database takes. -/
inductive Commits : Dialogue α → Prop where
  /-- There is no result. -/
  | error (e : Failure) : Commits (done (.error e))
  /-- A command is given. After a commit that is taken nothing is demanded. -/
  | step (c : Command) (next : Reply → Dialogue α)
      (h : ∀ reply, (c = .commit → reply = none) → Commits (next reply)) : Commits (.step c next)

/-- A transaction gives a result only after its commit. -/
theorem commits_transaction (d : Dialogue α) : d.transaction.Commits := by
  have herror (e : Failure) : (finish (.error e) : Dialogue α).Commits :=
    finish_error_induction .error (fun c next _ h => .step c next fun reply _ => h reply) e
  have hbody : ((d >>= fun a => ask .commit >>= fun _ => pure a).attempt >>= finish).Commits := by
    induction d with
    | done result =>
        cases result with
        | error e => exact herror e
        | ok a =>
            refine .step .commit _ fun reply hreply => ?_
            rw [hreply rfl]
            exact herror _
    | step c next ih => exact .step c _ fun reply _ => ih reply
  refine .step .connect _ fun reply _ => ?_
  cases reply with
  | none => exact .error _
  | some rows => exact hbody

end Dialogue

/-- A call that has changed the rules has committed the change. -/
theorem RuleCall.commits_change (x : Context) (call : RuleCall) : (call.change x).Commits := by
  rw [change]
  cases call.body x with
  | error e => exact .error e
  | ok d => exact Dialogue.commits_transaction d

namespace Dialogue

/-- Every result of the dialogue publishes rules that have the property, or are read from the rows
that a later command for all rules is replied with. -/
inductive Loads : (List Permission → Prop) → Dialogue (Snapshot → Snapshot) → Prop where
  /-- There is a result. -/
  | ok {P : List Permission → Prop} (ps : List Permission) (h : P ps) :
      Loads P (done (.ok fun s => s.publish ps))
  /-- There is none. -/
  | error {P : List Permission → Prop} (e : Failure) : Loads P (done (.error e))
  /-- A command is given, and the rules may be read from the reply. -/
  | step {P : List Permission → Prop} (c : Command)
      (next : Reply → Dialogue (Snapshot → Snapshot))
      (h : ∀ reply, Loads (fun ps => P ps ∨ c = .execute .permissions ∧
        ∃ rows, reply = some rows ∧ rows.mapM Permission.ofRow = .ok ps) (next reply)) :
      Loads P (.step c next)

theorem Loads.mono {P Q : List Permission → Prop} {d : Dialogue (Snapshot → Snapshot)}
    (h : d.Loads P) (hPQ : ∀ ps, P ps → Q ps) : d.Loads Q := by
  induction h generalizing Q with
  | ok ps h => exact .ok ps (hPQ ps h)
  | error e => exact .error e
  | step c next _ ih => exact .step c next fun reply => ih reply fun ps => Or.imp_left (hPQ ps)

theorem loads_finish_error {P : List Permission → Prop} (e : Failure) :
    (finish (.error e) : Dialogue (Snapshot → Snapshot)).Loads P := by
  refine finish_error_induction (P := fun d => ∀ P, Loads P d) (fun e _ => .error e) ?_ e P
  exact fun c next _ h P => .step c next fun reply => h reply _

end Dialogue

/-- What is made of the rules can be made in the transaction that reads them. -/
theorem Snapshot.reloading_eq :
    reloading = (Permission.fetchAll >>= fun ps => pure fun s => s.publish ps).transaction :=
  (Dialogue.transaction_map _ _).symm

/-- All rules are read from the rows that the store is asked for. -/
theorem Snapshot.loads_reloading : reloading.Loads fun _ => False := by
  rw [reloading_eq]
  refine .step .connect _ fun reply => ?_
  cases reply with
  | none => exact .error _
  | some rows =>
      refine .step (.execute .permissions) _ fun reply => ?_
      cases reply with
      | none => exact Dialogue.loads_finish_error _
      | some rows =>
          show (Dialogue.bind Dialogue.finish (Dialogue.attempt (Dialogue.bind _ (Dialogue.bind _
            (Dialogue.done (rows.mapM Permission.ofRow)))))).Loads _
          cases hread : rows.mapM Permission.ofRow with
          | error e => exact Dialogue.loads_finish_error e
          | ok ps =>
              refine .step .commit _ fun reply => ?_
              cases reply with
              | none => exact Dialogue.loads_finish_error _
              | some _ =>
                  exact .step _ _ fun _ => .ok ps (.inl (.inl (.inr ⟨rfl, rows, rfl, hread⟩)))

end Warden
