import Warden.Proofs.Database.Dialogue

/-! # What can be said in a dialogue

A dialogue can give a command (**`Dialogue.Says`**) if it does so with some replies. Every command
of a run is one that the dialogue can give (`mem_run`), so what is never said is read off the
dialogue alone: one lemma for each way in which dialogues are put together. -/

namespace Warden.Dialogue

variable {α β : Type} {c : Command} {d : Dialogue α} {f : α → Dialogue β} {s t : Statement}

/-- With some replies the dialogue comes to give the command. -/
inductive Says (c : Command) : Dialogue α → Prop where
  /-- The command is given next. -/
  | here {next : Reply → Dialogue α} : Says c (.step c next)
  /-- The command is given after a reply. -/
  | later {b : Command} {next : Reply → Dialogue α} (reply : Reply) (h : Says c (next reply)) :
      Says c (.step b next)

theorem not_says_done (result : Outcome α) : ¬ Says c (done result) := by
  rintro ⟨⟩

/-- Only commands that can be given are given. -/
theorem mem_run {db : Database} {past : List Command} (h : c ∈ (d.run db past).1) :
    c ∈ past ∨ Says c d := by
  induction d generalizing past with
  | done result => exact .inl h
  | step b next ih =>
      rcases ih (db past b) h with hpast | hnext
      · rcases List.mem_cons.1 hpast with rfl | hpast
        · exact .inr .here
        · exact .inl hpast
      · exact .inr (.later _ hnext)

/-! ## Dialogues after one another -/

/-- What is said in two dialogues one after the other is said in one of them. -/
theorem says_bind (h : Says c (d >>= f)) : Says c d ∨ ∃ a, Says c (f a) := by
  rw [bind_eq] at h
  induction d with
  | done result =>
      cases result with
      | ok a => exact .inr ⟨a, h⟩
      | error e => cases h
  | step b next ih =>
      cases h with
      | here => exact .inl .here
      | later reply h =>
          rcases ih reply h with hd | hf
          · exact .inl (.later reply hd)
          · exact .inr hf

/-- After a computation that asks nothing, what is said is said with its result. -/
theorem says_lift_bind {x : Outcome α} :
    Says c (liftM x >>= f) ↔ ∃ a, x = .ok a ∧ Says c (f a) := by
  cases x with
  | ok a =>
      constructor
      · intro h
        exact ⟨a, rfl, h⟩
      · rintro ⟨_, ha, h⟩
        cases ha
        exact h
  | error e =>
      constructor
      · intro h
        exact absurd h (not_says_done _)
      · rintro ⟨a, ha, -⟩
        cases ha

/-- What is said in a dialogue whose result is looked at afterwards, without a further command, is
said in the dialogue. -/
theorem says_bind_of_silent (hf : ∀ a, ¬ Says c (f a)) (h : Says c (d >>= f)) : Says c d := by
  rcases says_bind h with hd | ⟨a, ha⟩
  · exact hd
  · exact absurd ha (hf a)

/-! ## Statements -/

/-- To execute a statement is to say no other. -/
theorem says_execute (h : Says (.execute s) (execute t)) : s = t := by
  cases h with
  | here => rfl
  | later reply h => cases reply <;> cases h

theorem not_says_ask (hc : ∀ s, c ≠ .execute s) : ¬ Says (.execute s) (ask c) := by
  intro h
  cases h with
  | here => exact hc _ rfl
  | later reply h => cases reply <;> cases h

/-- To give another command and go on is to execute what is executed afterwards. -/
theorem not_says_tell_bind {f : Unit → Dialogue β} (hc : ∀ s, c ≠ .execute s)
    (hf : ¬ Says (.execute s) (f ())) : ¬ Says (.execute s) (tell c >>= f) := by
  intro h
  cases h with
  | here => exact hc _ rfl
  | later reply h => exact hf h

theorem says_of_attempt (h : Says c d.attempt) : Says c d := by
  induction d with
  | done result => cases h
  | step b next ih =>
      cases h with
      | here => exact .here
      | later reply h => exact .later reply (ih reply h)

/-- The end of a transaction executes nothing. -/
theorem not_says_finish (result : Outcome α) : ¬ Says (.execute s) (finish result) := by
  cases result with
  | ok a => exact not_says_tell_bind (by simp) (not_says_done _)
  | error e =>
      have hrollback : ¬ Says (.execute s) (ask .rollback) := not_says_ask (by simp)
      intro h
      rcases says_bind h with h | ⟨_, h⟩
      · exact hrollback (says_of_attempt h)
      · rcases says_bind h with h | ⟨_, h⟩
        · exact hrollback h
        · exact not_says_tell_bind (by simp) (not_says_done _) h

/-- What is executed in a transaction is executed in its body. -/
theorem says_of_transaction (h : Says (.execute s) d.transaction) : Says (.execute s) d := by
  rw [transaction] at h
  rcases says_bind h with h | ⟨_, h⟩
  · exact absurd h (not_says_ask (by simp))
  · have hattempt := says_bind_of_silent not_says_finish h
    have hbody := says_bind_of_silent ?_ (says_of_attempt hattempt)
    · exact hbody
    · intro a h
      rcases says_bind h with h | ⟨_, h⟩
      · exact not_says_ask (by simp) h
      · cases h

end Warden.Dialogue
