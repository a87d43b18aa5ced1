import Warden.Database.Items
import Warden.Proofs.Outcome

/-! # Leading dialogues

What is said in a dialogue stays said: leading it only adds commands to those before it
(`suffix_run`), and so does everything that follows it (`suffix_run_bind`). A dialogue made of two
ends well iff both do, one after the other (`run_bind_eq_ok`). -/

namespace Warden

namespace Dialogue

variable {α β : Type} {db : Database} {past between after : List Command}

@[simp] theorem run_lift (result : Outcome α) :
    (liftM result : Dialogue α).run db past = (past, result) := rfl

theorem bind_eq (d : Dialogue α) (f : α → Dialogue β) : d >>= f = bind f d := rfl

/-- Two dialogues one after the other end well iff both do. -/
theorem run_bind_eq_ok {d : Dialogue α} {f : α → Dialogue β} {b : β} :
    (d >>= f).run db past = (after, .ok b) ↔
      ∃ between a, d.run db past = (between, .ok a) ∧ (f a).run db between = (after, .ok b) := by
  rw [bind_eq, run_bind]
  rcases d.run db past with ⟨between, _ | a⟩
  · simp
  · simp only [Prod.mk.injEq, Except.ok.injEq]
    constructor
    · intro h
      exact ⟨between, a, ⟨rfl, rfl⟩, h⟩
    · rintro ⟨_, _, ⟨rfl, rfl⟩, h⟩
      exact h

/-- After a dialogue that ended well the next one goes on. -/
theorem run_bind_of_ok {d : Dialogue α} (f : α → Dialogue β) {a : α}
    (h : d.run db past = (between, .ok a)) : (d >>= f).run db past = (f a).run db between := by
  rw [bind_eq, run_bind, h]

/-! ## What was said -/

/-- Leading a dialogue only adds commands. -/
theorem suffix_run (d : Dialogue α) : past <:+ (d.run db past).1 := by
  induction d generalizing past with
  | done result => exact List.suffix_refl _
  | step c next ih => exact (List.suffix_cons c past).trans (ih _)

/-- What was said in a dialogue stays said in what follows. -/
theorem suffix_run_bind (d : Dialogue α) (f : α → Dialogue β) :
    (d.run db past).1 <:+ ((d >>= f).run db past).1 := by
  rw [bind_eq, run_bind]
  rcases d.run db past with ⟨between, _ | a⟩
  · exact List.suffix_refl _
  · exact suffix_run (f a)

/-- A statement was said, whatever the reply to it. -/
theorem suffix_run_execute (s : Statement) (f : List Row → Dialogue β) :
    (.execute s :: past) <:+ ((execute s >>= f).run db past).1 :=
  suffix_run _

/-- Looking at the failure of a dialogue does not change what is said in it. -/
theorem run_attempt (d : Dialogue α) :
    d.attempt.run db past = ((d.run db past).1, .ok (d.run db past).2) := by
  induction d generalizing past with
  | done result => rfl
  | step c next ih => exact ih _

/-- What is said in a transaction that gets a connection. -/
theorem suffix_run_transaction {rows : List Row} (d : Dialogue α)
    (h : db past .connect = some rows) :
    (d.run db (.connect :: past)).1 <:+ (d.transaction.run db past).1 := by
  have hconnect : (ask .connect).run db past = (.connect :: past, .ok rows) := by
    simp only [ask, run, h]
  have hcommitted : (d.run db (.connect :: past)).1 <:+
      ((d >>= fun a => ask .commit >>= fun _ => pure a).run db (.connect :: past)).1 :=
    suffix_run_bind d _
  rw [transaction, run_bind_of_ok _ hconnect]
  refine .trans ?_ (suffix_run_bind _ finish)
  rw [run_attempt]
  exact hcommitted

end Dialogue

/-! ## Adding items -/

namespace Catalog

variable {k : Catalog} {collection : String} {values : Record} {db : Database}
  {past after : List Command}

/-- An item that was added is one whose statement can be made. -/
theorem exists_insertRow_of_run {key : Value}
    (h : (k.insertItem collection values).run db past = (after, .ok key)) :
    ∃ s, Sql.insertRow k collection values = .ok s := by
  obtain ⟨_, s, hs, -⟩ := Dialogue.run_bind_eq_ok.1 h
  rw [Dialogue.run_lift] at hs
  exact ⟨s, (Prod.mk.inj hs).2⟩

/-- The statement that adds an item is executed, and the rest follows. -/
theorem run_insertItem {s : Sql.Change} (h : Sql.insertRow k collection values = .ok s) :
    (k.insertItem collection values).run db past =
      (Dialogue.execute (.change s) >>= fun rows =>
        match Row.first? rows with
        | some r => liftM (r.cell 0)
        | none => pure .null).run db past := by
  rw [insertItem, h]
  rfl

theorem suffix_run_insertItem {s : Sql.Change} (h : Sql.insertRow k collection values = .ok s) :
    (.execute (.change s) :: past) <:+ ((k.insertItem collection values).run db past).1 := by
  rw [run_insertItem h]
  exact Dialogue.suffix_run_execute (.change s) _

/-- The statement that changes items is executed. -/
theorem suffix_run_updateItems {f : Filter} {relConditions : Named Filter} {s : Sql.Change}
    (h : Sql.updateRows k collection f values relConditions = .ok s) :
    (.execute (.change s) :: past) <:+
      ((k.updateItems collection f values relConditions).run db past).1 := by
  rw [updateItems, h]
  exact Dialogue.suffix_run_execute (.change s) _

/-- The key of an item is the one in the row that the database replies with. -/
theorem run_insertItem_of_reply {s : Sql.Change} {key : Value}
    (h : Sql.insertRow k collection values = .ok s)
    (hdb : db past (.execute (.change s)) = some [.tuple [key]]) :
    (k.insertItem collection values).run db past = (.execute (.change s) :: past, .ok key) := by
  rw [run_insertItem h]
  have hrows : (Dialogue.execute (.change s)).run db past =
      (.execute (.change s) :: past, .ok [.tuple [key]]) := by
    simp only [Dialogue.execute, Dialogue.ask, Dialogue.run, hdb]
  rw [Dialogue.run_bind_of_ok _ hrows]
  rfl

end Catalog

end Warden
