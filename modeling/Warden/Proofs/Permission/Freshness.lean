import Mathlib.Data.List.Range
import Warden.Proofs.Permission.Reloading

/-! # No rules are published over newer ones

A call that changes the rules ends when it has published what it read, and what it read may be old
by then. It is never older than the call's own change, and nobody else publishes anything older
either: whoever reads after the call does so with the lock, which was taken after the call gave it
back.

* **`Reloading.Fresh`** is this invariant, of a run after the commit of one call.
* **`snapshot_never_stale`** is the main statement. -/

namespace Warden.Reloading

variable {ι : Type} [DecidableEq ι] {start s t : Reloading ι} {e : Event ι} {es : List (Event ι)}
  {i j : ι}

/-! ## What was read since a commit -/

/-- The rules were read from the store as it stood at some time in the run. -/
def ReadIn (origin : Reloading ι) (es : List (Event ι)) (s : Reloading ι)
    (read : List Permission) : Prop :=
  ∃ before after u, es = before ++ after ∧ Run origin before u ∧ Run u after s ∧
    Permission.Listing u.store read

variable {origin : Reloading ι} {read : List Permission}

theorem ReadIn.step (h : ReadIn origin es s read) (he : Step s e t) :
    ReadIn origin (es ++ [e]) t read := by
  obtain ⟨before, after, u, rfl, hbefore, hafter, hread⟩ := h
  exact ⟨before, after ++ [e], u, List.append_assoc _ _ _, hbefore, hafter.snoc he, hread⟩

/-- What is read next is read in the run. -/
theorem Run.readIn (h : Run origin es s) (he : Step s e t)
    (hread : Permission.Listing s.store read) : ReadIn origin (es ++ [e]) t read :=
  ⟨es, [e], s, rfl, h, Run.nil.snoc he, hread⟩

/-- What a call has come to says how far it was before, if it comes no further by the step. -/
theorem of_update {b : Progress → Bool} {p q : Progress} (hj : s.progress j = p)
    (h : b (Function.update s.progress j q i) = true) (hpq : b q = true → b p = true) :
    b (s.progress i) = true := by
  obtain rfl | hne := eq_or_ne i j
  · rw [hj]
    exact hpq (by simpa using h)
  · simpa [hne] using h

/-- Whoever reads after another call has come further did so before. -/
theorem loading_of_update {d : Dialogue (Snapshot → Snapshot)} {q : Progress}
    (h : Function.update s.progress j q i = .loading d) (hq : ∀ d, q ≠ .loading d) :
    s.progress i = .loading d := by
  obtain rfl | hne := eq_or_ne i j
  · exact absurd (by simpa using h) (hq d)
  · simpa [hne] using h

/-- Of a run after the commit of a call: once the call has begun to read, whoever reads does so in
the run, and once it has published, the snapshot is of rules that were read in the run. -/
structure Fresh (origin : Reloading ι) (es : List (Event ι)) (i : ι) (s : Reloading ι) : Prop where
  /-- Whoever reads does so in the run. -/
  loading : (s.progress i).begun = true → ∀ j d, s.progress j = .loading d →
    d.Loads (ReadIn origin es s)
  /-- The snapshot is of rules that were read in the run. -/
  ended : (s.progress i).ended = true →
    ∃ read, ReadIn origin es s read ∧ s.snapshot.permissions = Snapshot.firstOfEach read

namespace Fresh

/-- Whoever reads goes on to do so in the run, if the call had begun to read. -/
theorem loading_step (h : Fresh origin es i s) (he : Step s e t) (hi : (s.progress i).begun = true)
    {d : Dialogue (Snapshot → Snapshot)} (hj : s.progress j = .loading d) :
    d.Loads (ReadIn origin (es ++ [e]) t) :=
  (h.loading hi j d hj).mono fun _ hread => hread.step he

/-- A snapshot that stays in force is of rules that were read in the run, if the call had
published. -/
theorem ended_step (h : Fresh origin es i s) (he : Step s e t) (hsnapshot : t.snapshot = s.snapshot)
    (hi : (s.progress i).ended = true) :
    ∃ read, ReadIn origin (es ++ [e]) t read ∧
      t.snapshot.permissions = Snapshot.firstOfEach read := by
  obtain ⟨read, hread, hs⟩ := h.ended hi
  exact ⟨read, hread.step he, hsnapshot ▸ hs⟩

/-- Nothing changes while nobody takes the lock, reads or publishes. -/
theorem quiet (h : Fresh origin es i s) (he : Step s e t) (hsnapshot : t.snapshot = s.snapshot)
    (hbegun : (t.progress i).begun = true → (s.progress i).begun = true)
    (hended : (t.progress i).ended = true → (s.progress i).ended = true)
    (hloading : ∀ j d, t.progress j = .loading d → s.progress j = .loading d) :
    Fresh origin (es ++ [e]) i t where
  loading hi j d hj := h.loading_step he (hbegun hi) (hloading j d hj)
  ended hi := h.ended_step he hsnapshot (hended hi)

/-- One step keeps rules that were read before the commit from being held or published. -/
theorem step (h : Fresh origin es i s) (hs : s.Exclusive) (hrun : Run origin es s)
    (he : Step s e t) : Fresh origin (es ++ [e]) i t := by
  have hstep := he
  cases he with
  | change | wait | fail | abandon =>
      exact h.quiet hstep rfl (fun hi => of_update rfl hi fun hq => nomatch hq)
        (fun hi => of_update rfl hi fun hq => nomatch hq)
        fun k d hk => loading_of_update hk fun d hq => nomatch hq
  | @release j hj =>
      exact h.quiet hstep rfl (fun hi => of_update hj hi fun _ => rfl)
        (fun hi => of_update hj hi fun _ => rfl)
        fun k d hk => loading_of_update hk fun d hq => nomatch hq
  | @take j hj hfree =>
      constructor
      case loading =>
        intro hi k d hk
        obtain rfl | hkj := eq_or_ne k j
        · -- this call has read nothing yet
          have hd : d = Snapshot.reloading := by simpa using hk.symm
          rw [hd]
          exact Snapshot.loads_reloading.mono fun _ hfalse => hfalse.elim
        · -- nobody else reads, since the lock was free
          have hk' : s.progress k = .loading d := by simpa [hkj] using hk
          have hholder := hs k (by rw [hk']; rfl)
          rw [hfree] at hholder
          cases hholder
      case ended =>
        exact fun hi => h.ended_step hstep rfl (of_update rfl hi fun hq => nomatch hq)
  | @load j c next reply hj hreply =>
      constructor
      case loading =>
        intro hi k d hk
        have hbegun := of_update hj hi fun _ => rfl
        obtain rfl | hkj := eq_or_ne k j
        · -- the rules that the reply says are read now
          obtain rfl : next reply = d := by simpa using hk
          cases h.loading hbegun k _ hj with
          | step _ _ hnext =>
              refine (hnext reply).mono fun read hread => ?_
              obtain hread | ⟨hc, rows, hrows, hread⟩ := hread
              · exact hread.step hstep
              · obtain ⟨ps, hperm, rfl⟩ := hreply rows hc hrows
                exact hrun.readIn hstep (Permission.listing_of_mapM hperm hread)
        · exact h.loading_step hstep hbegun (by simpa [hkj] using hk)
      case ended =>
        exact fun hi => h.ended_step hstep rfl (of_update rfl hi fun hq => nomatch hq)
  | @publish j next hj =>
      constructor
      case loading =>
        intro hi k d hk
        have hk' := loading_of_update hk fun d hq => nomatch hq
        exact h.loading_step hstep (of_update hj hi fun _ => rfl) hk'
      case ended =>
        intro hi
        have hbegun := of_update hj (Progress.begun_of_ended hi) fun _ => rfl
        cases h.loading hbegun j _ hj with
        | ok ps hread => exact ⟨ps, hread.step hstep, rfl⟩

/-- Nothing was read before the commit of a call that has not begun to read. -/
theorem of_changing {d : Dialogue Unit} (h : origin.progress i = .changing d) :
    Fresh origin [] i origin := by
  constructor
  · rw [h]
    exact fun hi => nomatch hi
  · rw [h]
    exact fun hi => nomatch hi

theorem of_run {d : Dialogue Unit} (horigin : origin.Exclusive)
    (h : origin.progress i = .changing d) (hrun : Run origin es s) : Fresh origin es i s := by
  have hboth : s.Exclusive ∧ Fresh origin es i s := by
    induction hrun with
    | nil => exact ⟨horigin, of_changing h⟩
    | snoc hrun he ih => exact ⟨ih.1.step he, ih.2.step ih.1 hrun he⟩
  exact hboth.2

end Fresh

/-! ## Commits -/

/-- A call that has just committed its change still has to end the transaction. -/
theorem Step.changing_of_commits (h : Step s e t) (he : e.Commits i) :
    ∃ d, t.progress i = .changing d := by
  obtain ⟨rows, rfl⟩ := he
  cases h
  exact ⟨_, Function.update_self ..⟩

/-- The store changes by commits alone. -/
theorem Step.store_eq (h : Step s e t) (he : ∀ i, ¬ e.Commits i) : t.store = s.store := by
  cases h with
  | @change i c next reply store _ hstore =>
      obtain hstore | ⟨rfl, hreply⟩ := hstore
      · exact hstore
      · obtain ⟨rows, rfl⟩ := Option.isSome_iff_exists.1 hreply
        exact absurd ⟨rows, rfl⟩ (he i)
  | _ => rfl

theorem Run.store_eq (h : Run start es s) (hes : ∀ e ∈ es, ∀ i, ¬ e.Commits i) :
    s.store = start.store := by
  induction h with
  | nil => rfl
  | snoc _ he ih =>
      obtain ⟨hbefore, hlast⟩ := List.forall_mem_append.1 hes
      rw [he.store_eq (hlast _ (List.mem_singleton_self _)), ih hbefore]

/-- A call comes to wait for the lock by a commit. -/
theorem Step.uncommitted (h : Step s e t) (hs : (s.progress i).Uncommitted) :
    (t.progress i).Uncommitted ∨ e.Commits i := by
  have hother {j : ι} {q : Progress} (hne : i ≠ j) :
      (Function.update s.progress j q i).Uncommitted := by
    rwa [Function.update_of_ne hne]
  cases h with
  | @change j c next reply store hj =>
      obtain rfl | hne := eq_or_ne i j
      · rw [hj] at hs
        cases hs with
        | step _ _ hnext =>
            by_cases hc : c = .commit → reply = none
            · simp only [Function.update_self]
              exact .inl (hnext reply hc)
            · obtain ⟨rfl, hreply⟩ := Classical.not_imp.1 hc
              obtain ⟨rows, rfl⟩ := Option.ne_none_iff_exists'.1 hreply
              exact .inr ⟨rows, rfl⟩
      · exact .inl (hother hne)
  | @wait j hj | @take j hj | @load j _ _ _ hj | @publish j _ hj | @release j hj
  | @abandon j _ hj =>
      obtain rfl | hne := eq_or_ne i j
      · rw [hj] at hs
        cases hs
      · exact .inl (hother hne)
  | @fail j =>
      obtain rfl | hne := eq_or_ne i j
      · exact .inl (by simp [Progress.Uncommitted])
      · exact .inl (hother hne)

/-- A call that has not failed and does no longer change the rules has had its change committed. -/
theorem Run.uncommitted (hstart : start.Start) (h : Run start es s) (i : ι) :
    (s.progress i).Uncommitted ∨ ∃ e ∈ es, e.Commits i := by
  induction h with
  | nil =>
      obtain ⟨x, call, hi⟩ := hstart.changing i
      rw [hi]
      exact .inl (call.commits_change x)
  | snoc _ he ih =>
      rcases ih with hs | ⟨e, hmem, hi⟩
      · exact (he.uncommitted hs).imp_right fun hi =>
          ⟨_, List.mem_append_right _ (List.mem_singleton_self _), hi⟩
      · exact .inr ⟨e, List.mem_append_left _ hmem, hi⟩

/-- A run in which something was committed goes on from the last commit. -/
theorem Run.exists_last_commit (h : Run start es s) (hes : ∃ e ∈ es, ∃ i, e.Commits i) :
    ∃ i before u e v after, Run start before u ∧ Step u e v ∧ e.Commits i ∧ Run v after s ∧
      ∀ e ∈ after, ∀ i, ¬ e.Commits i := by
  induction h with
  | nil => simp at hes
  | @snoc es s t e h he ih =>
      by_cases hlast : ∃ i, e.Commits i
      · obtain ⟨i, hi⟩ := hlast
        exact ⟨i, es, s, e, t, [], h, he, hi, .nil, List.forall_mem_nil _⟩
      · obtain ⟨e', he', hcommits⟩ := hes
        rcases List.mem_append.1 he' with he' | he'
        · obtain ⟨i, before, u, e₀, v, after, hbefore, hu, hi, hafter, hnone⟩ :=
            ih ⟨e', he', hcommits⟩
          refine ⟨i, before, u, e₀, v, after ++ [e], hbefore, hu, hi, hafter.snoc he, ?_⟩
          exact List.forall_mem_append.2 ⟨hnone, List.forall_mem_singleton.2 (not_exists.1 hlast)⟩
        · rw [List.mem_singleton.1 he'] at hcommits
          exact absurd hcommits hlast

/-! ## Versions -/

/-- The snapshots that are published, in order. -/
def published (es : List (Event ι)) : List Snapshot :=
  es.filterMap Event.snapshot?

/-- Whoever reads rules publishes rules that were read. -/
def Publishing (s : Reloading ι) : Prop :=
  ∀ j d, s.progress j = .loading d → d.Loads fun _ => True

omit [DecidableEq ι] in
theorem Start.publishing (h : start.Start) : start.Publishing := by
  intro j d hj
  obtain ⟨x, call, hcall⟩ := h.changing j
  rw [hcall] at hj
  cases hj

theorem Publishing.step (h : s.Publishing) (he : Step s e t) : t.Publishing := by
  intro k d hk
  cases he with
  | change | wait | fail | abandon | release | publish =>
      exact h k d (loading_of_update hk fun d hq => nomatch hq)
  | @take j =>
      obtain rfl | hkj := eq_or_ne k j
      · obtain rfl : Snapshot.reloading = d := by simpa using hk
        exact Snapshot.loads_reloading.mono fun _ _ => trivial
      · exact h k d (by simpa [hkj] using hk)
  | @load j c next reply hj =>
      obtain rfl | hkj := eq_or_ne k j
      · obtain rfl : next reply = d := by simpa using hk
        cases h k _ hj with
        | step _ _ hnext => exact (hnext reply).mono fun _ _ => trivial
      · exact h k d (by simpa [hkj] using hk)

/-- A step publishes the snapshot after the one in force, or leaves that one in force. -/
theorem Step.snapshot (h : Step s e t) (hs : s.Publishing) :
    (e.snapshot? = none ∧ t.snapshot = s.snapshot) ∨
      (e.snapshot? = some t.snapshot ∧ t.snapshot.version = s.snapshot.version + 1) := by
  cases h with
  | @publish j next hj =>
      cases hs j _ hj with
      | ok ps => exact .inr ⟨rfl, rfl⟩
  | _ => exact .inl ⟨rfl, rfl⟩

theorem Run.publishing (hstart : start.Start) (h : Run start es s) : s.Publishing := by
  induction h with
  | nil => exact hstart.publishing
  | snoc _ he ih => exact ih.step he

/-- The snapshot in force is the last one that was published, and every one has the version after
that of the one before it. -/
theorem Run.versions (hstart : start.Start) (h : Run start es s) :
    (published es).map Snapshot.version =
        List.range' (start.snapshot.version + 1) (published es).length ∧
      s.snapshot = (published es).getLast?.getD start.snapshot ∧
      s.snapshot.version = start.snapshot.version + (published es).length := by
  induction h with
  | nil => exact ⟨rfl, rfl, rfl⟩
  | @snoc es s t e hrun he ih =>
      obtain ⟨hversions, hlast, hversion⟩ := ih
      rcases he.snapshot (hrun.publishing hstart) with ⟨hnone, hs⟩ | ⟨hsome, hnext⟩
      · have hpublished : published (es ++ [e]) = published es := by simp [published, hnone]
        rw [hpublished, hs]
        exact ⟨hversions, hlast, hversion⟩
      · have hpublished : published (es ++ [e]) = published es ++ [t.snapshot] := by
          simp [published, hsome]
        have hnumber : t.snapshot.version = start.snapshot.version + 1 + (published es).length := by
          omega
        rw [hpublished]
        refine ⟨?_, ?_, ?_⟩
        · rw [List.map_append, hversions, List.length_append, List.length_singleton,
            List.range'_concat, Nat.one_mul, List.map_singleton, hnumber]
        · rw [List.getLast?_concat, Option.getD_some]
        · rw [List.length_append, List.length_singleton, hnumber]
          omega

/-! ## No rules are published over newer ones -/

/-- What is known after a run in which calls changed and read the rules. -/
structure NeverStale (start : Reloading ι) (es : List (Event ι)) (s : Reloading ι) : Prop where
  /-- A call that has ended with a result has got its change committed. -/
  committed : ∀ i, s.progress i = .completed → ∃ e ∈ es, e.Commits i
  /-- From then on that it has ended, the snapshot is of rules that were read at or after any commit
  of its change. -/
  fresh : ∀ i, s.progress i = .completed → ∀ before u e v after, Run start before u → Step u e v →
    e.Commits i → Run v after s →
      ∃ read, ReadIn v after s read ∧ s.snapshot.permissions = Snapshot.firstOfEach read
  /-- The versions of the snapshots that were published go up by one. -/
  versions : (published es).map Snapshot.version =
    List.range' (start.snapshot.version + 1) (published es).length
  /-- The last of them is in force. -/
  current : s.snapshot = (published es).getLast?.getD start.snapshot
  /-- Once all calls have ended with a result, the snapshot is of the rules in the store; if these
  have distinct keys, it has exactly them. -/
  final : Nonempty ι → (∀ i, s.progress i = .completed) → s.snapshot.Holds s.store ∧
    (KeysDistinct s.store → s.snapshot.permissions.Perm (s.store.map Permission.asRead))
  /-- A call that nobody comes between goes on to end as it does alone. -/
  alone : ∀ (i : ι) (x : Context) (call : RuleCall) (tables : Tables) (past said : List Command)
    (next : Snapshot), s.progress i = .changing (call.change x) → s.holder = none →
    s.snapshot = x.snapshot → s.store = tables.stored past →
    (call.answer x).run tables.database past = (said, .ok next) →
      ∃ after t, Run s after t ∧ t.progress = Function.update s.progress i .completed ∧
        t.store = tables.stored said ∧ t.snapshot = next ∧ t.holder = none

/-- **No rules are published over newer ones**, however the commands of any number of calls are
interleaved, and whichever of them fail. -/
theorem snapshot_never_stale (hstart : start.Start) (h : Run start es s) :
    NeverStale start es s := by
  have hcommitted (i : ι) (hi : s.progress i = .completed) : ∃ e ∈ es, e.Commits i := by
    refine (h.uncommitted hstart i).resolve_left ?_
    rw [hi]
    exact id
  have hfresh (i : ι) (hi : s.progress i = .completed) (before : List (Event ι)) (u : Reloading ι)
      (e : Event ι) (v : Reloading ι) (after : List (Event ι)) (hbefore : Run start before u)
      (he : Step u e v) (hcommits : e.Commits i) (hafter : Run v after s) :
      ∃ read, ReadIn v after s read ∧ s.snapshot.permissions = Snapshot.firstOfEach read := by
    obtain ⟨d, hd⟩ := he.changing_of_commits hcommits
    exact (Fresh.of_run ((hbefore.exclusive hstart).step he) hd hafter).ended (by rw [hi]; rfl)
  obtain ⟨hversions, hcurrent, -⟩ := h.versions hstart
  refine ⟨hcommitted, hfresh, hversions, hcurrent, ?_,
    fun i x call tables past said next hi hfree hsnapshot hstore hrun =>
      Run.nil.exists_answer hi hfree hsnapshot hstore hrun⟩
  -- what was read after the last commit is what the store holds in the end
  rintro ⟨i⟩ hall
  obtain ⟨e, he, hi⟩ := hcommitted i (hall i)
  obtain ⟨j, before, u, e, v, after, hbefore, hu, hj, hafter, hnone⟩ :=
    h.exists_last_commit ⟨e, he, i, hi⟩
  obtain ⟨read, ⟨between, rest, w, rfl, -, hrest, hread⟩, hs⟩ :=
    hfresh j (hall j) before u e v after hbefore hu hj hafter
  rw [← hrest.store_eq (List.forall_mem_append.1 hnone).2] at hread
  have hholds : s.snapshot.Holds s.store := ⟨read, hread, hs⟩
  exact ⟨hholds, hholds.perm⟩

/-- Two rules, in a table that gives them in order. -/
def twoRules : Tables where
  roles := []
  rules := [Sample.rule .read .null (.record []),
    { Sample.rule .update .null (.record []) with id := ⟨2⟩ }]
  arrange := id
  perm := List.Perm.refl

/-- An administrator, before any rule is published. -/
def administrator : Context :=
  ⟨Sample.reader, Snapshot.empty,
    ⟨some ⟨.text "user-1", .text "admin", true, []⟩, none, none, none⟩, Sample.noon⟩

/-- Two calls that each delete one of the rules. -/
def twoDeletions : Reloading Bool where
  store := twoRules.rules
  snapshot := Snapshot.empty
  holder := none
  progress := fun i => .changing ((RuleCall.delete (if i then ⟨1⟩ else ⟨2⟩)).change administrator)

/-- The second rule is deleted after the first call has read the rules and before it publishes them:
the first snapshot is old when it is published, and the second call publishes the next one. -/
theorem snapshot_never_stale_overtaken : ∃ es s, twoDeletions.Start ∧ Run twoDeletions es s ∧
    (∀ i, s.progress i = .completed) ∧ s.store = [] ∧ NeverStale twoDeletions es s := by
  have hstart : twoDeletions.Start := ⟨rfl, fun i => ⟨_, _, rfl⟩⟩
  have hstore : twoDeletions.store = twoRules.stored [] := rfl
  -- the first call deletes its rule and reads the other one
  obtain ⟨_, a, ha, hap, hastore, -, hafree⟩ :=
    Run.nil.exists_change (i := true) rfl hstore rfl
  obtain ⟨_, b, hb, hbp, hbstore, -, -⟩ :=
    ha.exists_read (i := true) (by rw [hap]; rfl) hafree hastore rfl rfl
  -- the second call deletes that one, and the first call publishes it
  obtain ⟨_, c, hc, hcp, hcstore, -, -⟩ :=
    hb.exists_change (i := false) (by rw [hbp, hap]; rfl) hbstore rfl
  obtain ⟨_, d, hd, hdp, hdstore, -, hdfree⟩ :=
    hc.exists_publish (i := true) (by rw [hcp, hbp]; rfl)
  -- the second call reads and publishes what is left
  obtain ⟨_, u, hu, hup, hustore, -, -⟩ := hd.exists_read (i := false) (by rw [hdp, hcp]; rfl)
    hdfree (hdstore.trans hcstore) rfl rfl
  obtain ⟨_, v, hv, hvp, hvstore, -, -⟩ := hu.exists_publish (i := false) (by rw [hup]; rfl)
  refine ⟨_, v, hstart, hv, ?_, ?_, snapshot_never_stale hstart hv⟩
  · rw [hvp, hup, hdp]
    rintro (_ | _) <;> rfl
  · rw [hvstore, hustore]
    rfl

end Warden.Reloading
