import Warden.Refusal

/-! # Results of computations that can fail

A computation made of steps gives a result exactly when every step does. The lemmas take such a
computation apart, one step at a time. -/

namespace Warden.Outcome

variable {ε α β : Type}

/-- Two steps after one another give a result iff the first one does and the second one does on
what the first one gave. -/
theorem bind_eq_ok {x : Except ε α} {f : α → Except ε β} {b : β} :
    (x >>= f) = .ok b ↔ ∃ a, x = .ok a ∧ f a = .ok b := by
  cases x <;> simp [bind, Except.bind]

/-- A step that is done is left behind. -/
theorem ok_bind (a : α) (f : α → Except ε β) : ((.ok a : Except ε α) >>= f) = f a :=
  rfl

/-- A step that cannot fail changes the result and nothing else. -/
theorem map_eq_ok {x : Except ε α} {f : α → β} {b : β} :
    x.map f = .ok b ↔ ∃ a, x = .ok a ∧ f a = b := by
  cases x <;> simp [Except.map]

/-- Computations whose last step differs in what is made of its result differ in that alone. -/
theorem bind_eq_map_bind {γ : Type} {x : Except ε α} {f : α → Except ε β} {g : β → γ}
    {f' : α → Except ε γ} (h : ∀ a, f' a = (f a).map g) : (x >>= f') = (x >>= f).map g := by
  cases x with
  | ok a => exact h a
  | error e => rfl

@[simp] theorem pure_eq_ok {a b : α} : (pure a : Except ε α) = .ok b ↔ a = b := by
  simp [pure, Except.pure]

/-- A computation that may only break off keeps its result as one that may also be turned down. -/
@[simp] theorem lift_eq_ok {x : Except Defect α} {a : α} :
    (liftM x : Outcome α) = .ok a ↔ x = .ok a := by
  cases x with
  | ok b =>
      show (.ok b : Outcome α) = .ok a ↔ _
      rw [Except.ok.injEq, Except.ok.injEq]
  | error defect => exact iff_of_false (fun h => nomatch h) (fun h => nomatch h)

/-- Every result of a list of computations is that of one of them. -/
theorem exists_of_mem_mapM {f : α → Except ε β} {as : List α} {bs : List β}
    (h : as.mapM f = .ok bs) {b : β} (hb : b ∈ bs) : ∃ a ∈ as, f a = .ok b := by
  induction as generalizing bs with
  | nil =>
      cases h
      cases hb
  | cons a as ih =>
      simp only [List.mapM_cons, bind_eq_ok, pure_eq_ok] at h
      obtain ⟨first, hfirst, rest, hrest, rfl⟩ := h
      rcases List.mem_cons.1 hb with rfl | hb
      · exact ⟨a, List.mem_cons_self, hfirst⟩
      · obtain ⟨a', ha', hb⟩ := ih hrest hb
        exact ⟨a', List.mem_cons_of_mem _ ha', hb⟩

/-- Every one of a list of computations that all have a result has one in the list of results. -/
theorem exists_mem_of_mapM {f : α → Except ε β} {as : List α} {bs : List β}
    (h : as.mapM f = .ok bs) {a : α} (ha : a ∈ as) : ∃ b ∈ bs, f a = .ok b := by
  induction as generalizing bs with
  | nil => cases ha
  | cons first as ih =>
      simp only [List.mapM_cons, bind_eq_ok, pure_eq_ok] at h
      obtain ⟨b, hb, rest, hrest, rfl⟩ := h
      rcases List.mem_cons.1 ha with rfl | ha
      · exact ⟨b, List.mem_cons_self, hb⟩
      · obtain ⟨b', hb', hf⟩ := ih hrest ha
        exact ⟨b', List.mem_cons_of_mem _ hb', hf⟩

/-- One of the results has a property iff the result of one of the computations has it. -/
theorem exists_mem_mapM_iff {f : α → Except ε β} {as : List α} {bs : List β}
    (h : as.mapM f = .ok bs) {P : β → Prop} :
    (∃ b ∈ bs, P b) ↔ ∃ a ∈ as, ∃ b, f a = .ok b ∧ P b := by
  constructor
  · rintro ⟨b, hb, hP⟩
    obtain ⟨a, ha, hf⟩ := exists_of_mem_mapM h hb
    exact ⟨a, ha, b, hf, hP⟩
  · rintro ⟨a, ha, b, hf, hP⟩
    obtain ⟨b', hb', hf'⟩ := exists_mem_of_mapM h ha
    rw [hf] at hf'
    cases hf'
    exact ⟨b, hb', hP⟩

/-- Computations that keep a part of what they are given keep it in a list. -/
theorem map_eq_of_mapM {γ : Type} {f : α → Except ε β} {as : List α} {bs : List β} {g : α → γ}
    {g' : β → γ} (hf : ∀ a b, f a = .ok b → g' b = g a) (h : as.mapM f = .ok bs) :
    bs.map g' = as.map g := by
  induction as generalizing bs with
  | nil =>
      cases h
      rfl
  | cons a as ih =>
      simp only [List.mapM_cons, bind_eq_ok, pure_eq_ok] at h
      obtain ⟨b, hb, rest, hrest, rfl⟩ := h
      rw [List.map_cons, List.map_cons, hf a b hb, ih hrest]

/-- What every one of many steps keeps is kept by all of them one after another. -/
theorem of_foldlM {P : β → Prop} {f : β → α → Except ε β}
    (hf : ∀ b a b', P b → f b a = .ok b' → P b') {as : List α} {b b' : β} (hb : P b)
    (h : as.foldlM f b = .ok b') : P b' := by
  induction as generalizing b with
  | nil =>
      cases h
      exact hb
  | cons a as ih =>
      obtain ⟨between, hbetween, h⟩ := bind_eq_ok.1 h
      exact ih (hf b a between hb hbetween) h

/-- Checks one after another pass iff each of them does. -/
theorem forIn_eq_ok {f : α → Except ε PUnit} {as : List α} {u : PUnit} :
    (forIn as PUnit.unit fun a _ => do
      f a
      pure (.yield PUnit.unit)) = Except.ok u ↔ ∀ a ∈ as, f a = .ok PUnit.unit := by
  induction as with
  | nil => exact iff_of_true rfl (List.forall_mem_nil _)
  | cons a as ih =>
      rw [List.forIn_cons, List.forall_mem_cons, ← ih]
      cases hf : f a with
      | ok u => simp [bind, Except.bind, pure, Except.pure]
      | error e => simp [bind, Except.bind]

/-- A step that cannot fail does not keep another one from failing. -/
theorem map_eq_error {x : Except ε α} {f : α → β} {e : ε} :
    x.map f = .error e ↔ x = .error e := by
  cases x <;> simp [Except.map]

/-- What a step gives is left out. -/
theorem map_unit_eq_ok {x : Except ε α} {u : Unit} :
    x.map (fun _ => ()) = .ok u ↔ ∃ a, x = .ok a := by
  rw [map_eq_ok]
  exact ⟨fun ⟨a, ha, _⟩ => ⟨a, ha⟩, fun ⟨a, ha⟩ => ⟨a, ha, rfl⟩⟩

/-- Of two steps after one another only the success is left over. -/
theorem bind_map_unit {x : Except ε α} {f : α → Except ε β} :
    (x >>= f).map (fun _ => ()) = x >>= fun a => (f a).map fun _ => () := by
  cases x <;> rfl

/-- All steps succeed iff each of them does. -/
theorem forM_eq_ok {f : α → Except ε Unit} {as : List α} :
    forM as f = .ok () ↔ ∀ a ∈ as, f a = .ok () := by
  induction as with
  | nil => exact iff_of_true rfl (List.forall_mem_nil _)
  | cons a as ih =>
      rw [List.forall_mem_cons, ← ih, List.forM_cons, bind_eq_ok]
      exact ⟨fun ⟨_, ha, has⟩ => ⟨ha, has⟩, fun ⟨ha, has⟩ => ⟨(), ha, has⟩⟩

/-- Steps fail as the first one does that fails. -/
theorem forM_eq_error {f : α → Except ε Unit} {as : List α} {e : ε} :
    forM as f = .error e ↔ ∃ before a after, as = before ++ a :: after ∧
      (∀ b ∈ before, f b = .ok ()) ∧ f a = .error e := by
  induction as with
  | nil =>
      constructor
      · intro h
        cases h
      · rintro ⟨before, a, after, h, -⟩
        exact absurd h.symm (by simp)
  | cons first as ih =>
      rw [List.forM_cons]
      cases hfirst : f first with
      | error e' =>
          constructor
          · intro h
            exact ⟨[], first, as, rfl, List.forall_mem_nil _, hfirst.trans h⟩
          · rintro ⟨before, a, after, h, hbefore, ha⟩
            cases before with
            | nil =>
                obtain ⟨rfl, -⟩ := List.cons.inj h
                exact hfirst.symm.trans ha
            | cons b before =>
                obtain ⟨rfl, -⟩ := List.cons.inj h
                cases hfirst.symm.trans (hbefore first List.mem_cons_self)
      | ok u =>
          show forM as f = .error e ↔ _
          rw [ih]
          constructor
          · rintro ⟨before, a, after, rfl, hbefore, ha⟩
            exact ⟨first :: before, a, after, rfl, List.forall_mem_cons.2 ⟨hfirst, hbefore⟩, ha⟩
          · rintro ⟨before, a, after, h, hbefore, ha⟩
            cases before with
            | nil =>
                obtain ⟨rfl, -⟩ := List.cons.inj h
                cases hfirst.symm.trans ha
            | cons b before =>
                obtain ⟨-, rfl⟩ := List.cons.inj h
                exact ⟨before, a, after, rfl, (List.forall_mem_cons.1 hbefore).2, ha⟩

/-- What is turned down has no result. -/
@[simp] theorem refuse_ne_ok (reason : Refusal) (a : α) : refuse reason ≠ .ok a := by
  simp [refuse]

/-- What is broken off has no result. -/
@[simp] theorem breakOff_ne_ok (defect : Defect) (a : α) : breakOff defect ≠ .ok a := by
  simp [breakOff]

end Warden.Outcome
