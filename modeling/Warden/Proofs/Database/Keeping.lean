import Warden.Proofs.Database.Says

/-! # What every statement of a dialogue has

**`Dialogue.Keeps`** says of a dialogue that every statement in it has one property and every result
another, whatever the database replies. The second property is what is known of a result where the
dialogue goes on with it (`Keeps.bind`). -/

namespace Warden.Dialogue

variable {α β : Type} {Q : Statement → Prop} {R : α → Prop} {S : β → Prop} {d : Dialogue α}
  {f : α → Dialogue β}

/-- Every statement has the one property and every result the other. -/
inductive Keeps (Q : Statement → Prop) (R : α → Prop) : Dialogue α → Prop where
  /-- There is a result. -/
  | ok (a : α) (ha : R a) : Keeps Q R (done (.ok a))
  /-- There is none. -/
  | error (e : Failure) : Keeps Q R (done (.error e))
  /-- A command is given, and the dialogue goes on. -/
  | step (c : Command) (next : Reply → Dialogue α) (hc : ∀ s, c = .execute s → Q s)
      (hnext : ∀ reply, Keeps Q R (next reply)) : Keeps Q R (.step c next)

/-- Every statement that can be said has the property. -/
theorem Keeps.of_says (h : d.Keeps Q R) {s : Statement} (hs : Says (.execute s) d) : Q s := by
  induction h with
  | ok a ha => cases hs
  | error e => cases hs
  | step c next hc _ ih =>
      cases hs with
      | here => exact hc s rfl
      | later reply hs => exact ih reply hs

theorem Keeps.mono {R' : α → Prop} (h : d.Keeps Q R) (hR : ∀ a, R a → R' a) : d.Keeps Q R' := by
  induction h with
  | ok a ha => exact .ok a (hR a ha)
  | error e => exact .error e
  | step c next hc _ ih => exact .step c next hc ih

theorem Keeps.bind (hd : d.Keeps Q R) (hf : ∀ a, R a → (f a).Keeps Q S) : (d >>= f).Keeps Q S := by
  induction hd with
  | ok a ha => exact hf a ha
  | error e => exact .error e
  | step c next hc _ ih => exact .step c _ hc ih

/-- A computation that asks nothing leaves the statements to what follows. -/
theorem keeps_lift_bind {x : Outcome α} (h : ∀ a, x = .ok a → (f a).Keeps Q S) :
    (liftM x >>= f).Keeps Q S := by
  cases x with
  | ok a => exact h a rfl
  | error e => exact .error e

theorem keeps_lift {x : Outcome α} (h : ∀ a, x = .ok a → R a) :
    (liftM x : Dialogue α).Keeps Q R := by
  cases x with
  | ok a => exact .ok a (h a rfl)
  | error e => exact .error e

theorem keeps_execute {s : Statement} (hs : Q s) : (execute s).Keeps Q fun _ => True := by
  refine .step _ _ ?_ fun reply => ?_
  · rintro _ ⟨⟩
    exact hs
  · cases reply with
    | none => exact .error _
    | some rows => exact .ok rows trivial

end Warden.Dialogue
