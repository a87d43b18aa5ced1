import Warden.Proofs.Query.Parameters
import Warden.Proofs.Sample
import Warden.Service.Call

/-! # Denial without a trace

A caller for whom there is no rule is denied before anything is looked at that could differ from one
collection to another:

* **`Context.DeniesItems`**: without a rule, whatever is done with the items of a collection is the
  dialogue `Dialogue.denied`, which gives no command, not even for a connection, and is the same for
  every collection, whether it exists or not.
* **`Context.DeniesPermissions`**: so is whatever a caller who is no administrator does with the
  permissions.
* **`Call.OnItems`**: what can be called for on the items of a collection. What is read of a call
  before its denial is the same for every collection, and so the answers are the same. -/

namespace Warden

/-! ## Dialogues without commands -/

namespace Dialogue

variable {α β : Type} {d : Dialogue α} {f : α → Dialogue β}

/-- The dialogue that is turned down for want of access, and gives no command. -/
def denied : Dialogue α :=
  done (refuse .accessDenied)

/-- No command is given, not even for a connection. -/
def Silent (d : Dialogue α) : Prop :=
  ∃ result, d = done result

theorem silent_done (result : Outcome α) : (done result).Silent :=
  ⟨result, rfl⟩

theorem Silent.bind (hd : d.Silent) (hf : ∀ a, (f a).Silent) : (d >>= f).Silent := by
  obtain ⟨result, rfl⟩ := hd
  cases result with
  | ok a => exact hf a
  | error e => exact silent_done _

theorem Silent.attempt (hd : d.Silent) : d.attempt.Silent := by
  obtain ⟨result, rfl⟩ := hd
  exact silent_done _

/-- Answering a refusal takes no command. -/
theorem Silent.answered {d : Dialogue Response} (hd : d.Silent) : d.answered.Silent := by
  refine hd.attempt.bind fun result => ?_
  match result with
  | .ok _ | .error (.refused _) | .error (.broken _) => exact silent_done _

end Dialogue

open Dialogue (denied)

namespace Context

variable {x : Context} {collection : String}

/-! ## Items -/

/-- No rule of the caller's role says anything about the action on the collection. -/
def HasNoRule (x : Context) (collection : String) (action : Action) : Prop :=
  ∀ role, x.caller.role = some role →
    ∀ p ∈ x.snapshot.permissions, p.isFor role.id collection action = false

/-- Without a rule there is no grant. -/
theorem grant_of_hasNoRule {action : Action} (hadmin : x.caller.isAdmin = false)
    (h : x.HasNoRule collection action) : x.grant collection action = refuse .accessDenied := by
  have hdeny : x.snapshot.grant x.reader x.caller collection action = .ok .deny := by
    rw [Snapshot.grant, hadmin]
    cases hrole : x.caller.role with
    | none => rfl
    | some role =>
        have hfind : x.snapshot.find? role.id collection action = none :=
          List.find?_eq_none.2 fun p hp => by simp [h role hrole p hp]
        simp [hfind]
  rw [grant, hdeny]
  rfl

/-- Without a rule for it, whatever is done with the items of a collection is denied. -/
structure DeniesItems (x : Context) (collection : String) : Prop where
  /-- No items are read, whatever else is in the request. -/
  readItems : x.HasNoRule collection .read → ∀ r : Request, x.readItems (r.on collection) = denied
  /-- No item is read, whatever its key and the fields asked for. -/
  readItem : x.HasNoRule collection .read → ∀ key fields, x.readItem collection key fields = denied
  /-- No item is created, whatever is sent for it. -/
  createItem : x.HasNoRule collection .create → ∀ data, x.createItem collection data = denied
  /-- No item is changed, whatever its key and what is sent for it. -/
  updateItem : x.HasNoRule collection .update →
    ∀ key data, x.updateItem collection key data = denied
  /-- No item is deleted, whatever its key. -/
  deleteItem : x.HasNoRule collection .delete → ∀ key, x.deleteItem collection key = denied

-- Each operation takes its grant before anything else, so that the refusal of the grant is all
-- that is left of it.
theorem deniesItems (hadmin : x.caller.isAdmin = false) (collection : String) :
    x.DeniesItems collection := by
  constructor
  case readItems =>
    intro h r
    have hgrant : x.grant (r.on collection).collection .read = refuse .accessDenied :=
      grant_of_hasNoRule hadmin h
    rw [Context.readItems, hgrant]
    rfl
  case readItem =>
    intro h key fields
    rw [Context.readItem, grant_of_hasNoRule hadmin h]
    rfl
  case createItem =>
    intro h data
    rw [Context.createItem, creation, grant_of_hasNoRule hadmin h]
    rfl
  case updateItem =>
    intro h key data
    rw [Context.updateItem, change, grant_of_hasNoRule hadmin h]
    rfl
  case deleteItem =>
    intro h key
    rw [Context.deleteItem, grant_of_hasNoRule hadmin h]
    rfl

/-! ## Permissions -/

/-- Whatever is done with permissions is denied. -/
structure DeniesPermissions (x : Context) : Prop where
  /-- No rules are listed. -/
  list : x.listPermissions = denied
  /-- No rule is created. -/
  create : ∀ id i, x.createPermission id i = denied
  /-- No rule is changed, whether there is one with the identifier or not. -/
  update : ∀ id changes, x.updatePermission id changes = denied
  /-- No rule is deleted, whether there is one with the identifier or not. -/
  delete : ∀ id, x.deletePermission id = denied

theorem deniesPermissions (hadmin : x.caller.isAdmin = false) : x.DeniesPermissions := by
  have hcheck : x.checkAdmin = refuse .accessDenied := by
    rw [checkAdmin, hadmin]
    rfl
  constructor
  case list =>
    rw [listPermissions, hcheck]
    rfl
  case create =>
    intro id i
    rw [createPermission, hcheck]
    rfl
  case update =>
    intro id changes
    rw [updatePermission, hcheck]
    rfl
  case delete =>
    intro id
    rw [deletePermission, hcheck]
    rfl

end Context

/-! ## Calls -/

/-- What can be called for on the items of a collection, each with the action that it takes. -/
inductive Call.OnItems : Action → (String → Call) → Prop where
  /-- Items are read by parameters. -/
  | listItems (parameters : Record) : OnItems .read (.listItems · parameters)
  /-- Items are read by a body. -/
  | queryItems (body : Body) : OnItems .read (.queryItems · body)
  /-- One item is read. -/
  | readItem (key : String) (parameters : Record) : OnItems .read (.readItem · key parameters)
  /-- An item is created. -/
  | createItem (body : Body) : OnItems .create (.createItem · body)
  /-- An item is changed. -/
  | updateItem (key : String) (body : Body) : OnItems .update (.updateItem · key body)
  /-- An item is deleted. -/
  | deleteItem (key : String) : OnItems .delete (.deleteItem · key)

namespace Service

variable {s : Service} {x : Context} {action : Action} {call : String → Call}

theorem silent_unchanged {d : Dialogue Response} (hd : d.Silent) : (s.unchanged d).Silent :=
  hd.bind fun _ => Dialogue.silent_done _

theorem silent_withBody {f : Record → Dialogue (Service × Response)} (body : Body)
    (hf : ∀ entries, (f entries).Silent) : (s.withBody body f).Silent := by
  unfold withBody
  split
  · exact hf _
  · exact Dialogue.silent_done _

/-- The answer to a call that is denied once its parameters have been read. -/
def deniedAfter {α : Type} (parameters : Outcome α) : Dialogue Response :=
  Dialogue.answered do
    let _ ← parameters
    denied

theorem silent_deniedAfter {α : Type} (parameters : Outcome α) :
    (deniedAfter parameters).Silent := by
  refine Dialogue.Silent.answered (.bind (Dialogue.silent_done _) fun _ => ?_)
  exact Dialogue.silent_done _

/-- Reading items that may not be read is denied once the parameters have been read, which can be
done for any collection. -/
theorem queryItems_eq_deniedAfter {collection : String} (h : x.DeniesItems collection)
    (hrule : x.HasNoRule collection .read) (parameters : Record) :
    s.queryItems x collection parameters =
      deniedAfter (Request.ofParameters "" parameters s.settings.defaultLimit) := by
  rw [queryItems, deniedAfter, Request.ofParameters_on "" collection]
  cases Request.ofParameters "" parameters s.settings.defaultLimit with
  | ok r =>
      show Dialogue.answered (x.readItems (r.on collection) >>= _) = Dialogue.answered denied
      rw [h.readItems hrule]
      rfl
  | error e => rfl

/-- Calls on the items of a collection are answered in one way, without a command, for all
collections without a rule. -/
theorem exists_silent_answer {caller : Caller} {now : DateTime}
    (hdenies : ∀ collection, (s.context caller now).DeniesItems collection)
    (h : Call.OnItems action call) :
    ∃ answer : Dialogue (Service × Response), answer.Silent ∧
      ∀ collection, (s.context caller now).HasNoRule collection action →
        s.answer (some caller) now (call collection) = answer := by
  cases h with
  | listItems parameters =>
      refine ⟨s.unchanged (deniedAfter
          (Request.ofParameters "" parameters s.settings.defaultLimit)),
        silent_unchanged (silent_deniedAfter _), fun collection hrule => ?_⟩
      exact congrArg s.unchanged (queryItems_eq_deniedAfter (hdenies collection) hrule parameters)
  | queryItems body =>
      refine ⟨s.withBody body fun entries => s.unchanged (deniedAfter
          (Request.ofParameters "" entries s.settings.defaultLimit)),
        silent_withBody body fun _ => silent_unchanged (silent_deniedAfter _),
        fun collection hrule => congrArg (s.withBody body) (funext fun entries => ?_)⟩
      exact congrArg s.unchanged (queryItems_eq_deniedAfter (hdenies collection) hrule entries)
  | readItem key parameters =>
      refine ⟨s.unchanged (deniedAfter (Parameters.readFields parameters)),
        silent_unchanged (silent_deniedAfter _), fun collection hrule => congrArg s.unchanged ?_⟩
      simp only [readItem, (hdenies collection).readItem hrule]
      rfl
  | createItem body =>
      refine ⟨s.withBody body fun _ => s.unchanged (deniedAfter (pure ())),
        silent_withBody body fun _ => silent_unchanged (silent_deniedAfter _),
        fun collection hrule => congrArg (s.withBody body) (funext fun entries => ?_)⟩
      rw [createItem, (hdenies collection).createItem hrule]
      rfl
  | updateItem key body =>
      refine ⟨s.withBody body fun _ => s.unchanged (deniedAfter (pure ())),
        silent_withBody body fun _ => silent_unchanged (silent_deniedAfter _),
        fun collection hrule => congrArg (s.withBody body) (funext fun entries => ?_)⟩
      rw [updateItem, (hdenies collection).updateItem hrule]
      rfl
  | deleteItem key =>
      refine ⟨s.unchanged (deniedAfter (pure ())),
        silent_unchanged (silent_deniedAfter _), fun collection hrule => congrArg s.unchanged ?_⟩
      rw [deleteItem, (hdenies collection).deleteItem hrule]
      rfl

/-- Without a rule nothing is learned and nothing is said. A caller who is no administrator is
denied whatever there is no rule for, before the first command, and gets the same answer for every
collection without a rule, whether it exists or not; what is done with permissions is denied to such
a caller in any case. -/
theorem denied_without_trace (s : Service) (caller : Caller) (now : DateTime)
    (hadmin : caller.isAdmin = false) :
    (∀ collection, (s.context caller now).DeniesItems collection) ∧
    (s.context caller now).DeniesPermissions ∧
    ∀ action call, Call.OnItems action call →
      ∃ answer : Dialogue (Service × Response), answer.Silent ∧
        ∀ collection, (s.context caller now).HasNoRule collection action →
          s.answer (some caller) now (call collection) = answer := by
  have hdenies := Context.deniesItems (x := s.context caller now) hadmin
  refine ⟨hdenies, Context.deniesPermissions hadmin, ?_⟩
  intro action call h
  exact exists_silent_answer hdenies h

open Sample in
/-- The service with the small world's collections and a rule by which editors read posts. -/
def reading : Service where
  settings := ⟨7, 10, "public", "administrator", "tenant", []⟩
  catalog := Sample.reader.catalog
  snapshot := Snapshot.empty.publish [rule .read .null (.record [])]
  isOpen := true

open Sample in
theorem hasNoRule_reading (collection : String) :
    (reading.context editor noon).HasNoRule collection .delete := by
  rintro role hrole p hp
  cases List.mem_singleton.1 hp
  simp [Permission.isFor, rule]

open Sample in
/-- Editors who may read posts cannot tell posts, which they may not delete, from what there is
not. -/
theorem denied_without_trace_reading :
    editor.isAdmin = false ∧
    (reading.context editor noon).deleteItem "posts" "1" = denied ∧
    (reading.context editor noon).listPermissions = denied ∧
    reading.answer (some editor) noon (.deleteItem "ghosts" "1") =
      reading.answer (some editor) noon (.deleteItem "posts" "1") := by
  have hadmin : editor.isAdmin = false := rfl
  obtain ⟨hitems, hpermissions, hanswers⟩ := denied_without_trace reading editor noon hadmin
  obtain ⟨answer, -, hanswer⟩ := hanswers .delete _ (.deleteItem "1")
  have hposts := hanswer "posts" (hasNoRule_reading "posts")
  have hghosts := hanswer "ghosts" (hasNoRule_reading "ghosts")
  exact ⟨hadmin, (hitems "posts").deleteItem (hasNoRule_reading "posts") "1", hpermissions.list,
    hghosts.trans hposts.symm⟩

end Service

end Warden
