import Warden.Proofs.Filter.Demand
import Warden.Proofs.Item.Statements
import Warden.Proofs.Item.Writing

/-! # The item that an operation is about

Reading, changing and deleting an item are asked for with the text of its key. The condition on the
key is joined to the rest in two ways: reading joins it to a finished plan, as it is; changing and
deleting join it to the grant's condition and then replace the variables of both. So all three
demand the key as it was given iff the text stands for itself (**`Resolver.Keeps`**), which every
text does that is no token (**`item_addressed_iff`**).

The key of a token is another one on writing than on reading, and a change of related items alone
writes the token itself into the row (`own_writer_renamed`). -/

namespace Warden

/-! ## Keys -/

/-- Texts are the same key iff they are the same. -/
theorem Value.matchesValue_text (s t : String) :
    (Value.text s).matchesValue (.text t) = .ok (s == t) := by
  have hsame : (Value.text s).same (.text t) = (s == t) := by
    rw [same] <;> simp [sameScalar, number?]
  rw [← hsame]
  rfl

/-- The record's key is the given one, as keys are compared. -/
def Collection.HasKey (c : Collection) (record : Record) (key : Value) : Prop :=
  (record.get c.primaryKey).matchesValue key = .ok true

/-- Records of which the condition on a key holds have the key. -/
theorem Collection.hasKey_of_holds {c : Collection} {record : Record} {key : Value}
    (h : (c.keyCondition key).Holds record) : c.HasKey record key := by
  have htest : Operator.eq.test (record.get c.primaryKey) key = .ok true := by
    rw [Filter.Holds, keyCondition, Filter.evaluate, Condition.evaluate] at h
    split at h
    · cases h
    · split at h
      case _ b heq =>
        cases b with
        | true => exact heq
        | false => cases h
      case _ => split at h <;> cases h
  rw [HasKey]
  cases hv : record.get c.primaryKey with
  | null =>
      rw [hv] at htest
      cases htest
  | _ =>
      rw [hv] at htest
      exact htest

/-- The text stands for itself, or for nothing that could be a key. -/
def Resolver.Keeps (r : Resolver) (s : String) : Prop :=
  ∀ v, r.resolveText s = .ok v → v.isScalar = true → v = .text s

/-- A text that is no token stands for itself. -/
theorem Resolver.keeps_of_ofText? {r : Resolver} {s : String} (h : Variable.ofText? s = none) :
    r.Keeps s := by
  intro v hv _
  rw [resolveText, h] at hv
  exact (Except.ok.inj hv).symm

/-- A condition on a key is one on what the key stands for, if that has no parts. -/
theorem Resolver.resolveCondition_key {r : Resolver} {column key : String} {g : Filter} :
    r.resolveCondition ⟨column, .eq, .text key, none⟩ = .ok g ↔
      ∃ v, r.resolveText key = .ok v ∧ v.isScalar = true ∧ g = .leaf ⟨column, .eq, v, none⟩ := by
  have hcheck (v : Value) : Operator.eq.checkValue v column = .ok () ↔ v.isScalar = true := by
    rw [Operator.checkValue, Outcome.bind_eq_ok]
    constructor
    · rintro ⟨b, hb, h⟩
      cases hb
      by_contra hv
      rw [if_neg hv] at h
      cases h
    · intro hv
      refine ⟨_, rfl, ?_⟩
      rw [if_pos hv]
      rfl
  rw [resolveCondition, Value.hasVariable]
  by_cases hvariable : (Variable.ofText? key).isSome = true
  · rw [if_pos hvariable]
    simp only [Outcome.bind_eq_ok, Outcome.pure_eq_ok, resolve]
    constructor
    · rintro ⟨v, hv, ⟨⟩, hscalar, rfl⟩
      exact ⟨v, hv, (hcheck v).1 hscalar, rfl⟩
    · rintro ⟨v, hv, hscalar, rfl⟩
      exact ⟨v, hv, (), (hcheck v).2 hscalar, rfl⟩
  · have hnone : Variable.ofText? key = none := by simpa using hvariable
    have hkey : r.resolveText key = .ok (.text key) := by rw [resolveText, hnone]
    rw [if_neg hvariable, hkey]
    constructor
    · intro h
      exact ⟨.text key, rfl, rfl, (Except.ok.inj h).symm⟩
    · rintro ⟨v, hv, -, rfl⟩
      rw [← Except.ok.inj hv]

/-! ## Rows of a key -/

variable {grant : Grant} {c : Collection} {r : Resolver} {key : String}

/-- The filter of a write demands what the key stands for. -/
theorem Grant.rowSecurity_demands {s : RowSecurity}
    (h : grant.rowSecurity c r (.text key) = .ok s) :
    s.filter = .none ∨ ∃ v, r.resolveText key = .ok v ∧ v.isScalar = true ∧
      s.filter.Demands (c.keyCondition v) := by
  simp only [rowSecurity, Outcome.bind_eq_ok, Outcome.pure_eq_ok] at h
  obtain ⟨f, hf, -, -, relConditions, -, rfl⟩ := h
  rcases (mergeFilters_demands rfl grant.condition grant.unrestricted).mapConditions hf with
    hnone | ⟨g, hg, hdemands⟩
  · exact .inl hnone
  · obtain ⟨v, hv, hscalar, rfl⟩ := Resolver.resolveCondition_key.1 hg
    exact .inr ⟨v, hv, hscalar, hdemands rfl⟩

/-- The filter of reading an item demands its key as it is. -/
theorem Context.itemPlan_demands {x : Context} {fields : Option (List String)} {p : Plan}
    (h : x.itemPlan grant c key fields = .ok p) :
    p.filter.Demands (c.keyCondition (.text key)) := by
  simp only [itemPlan, Outcome.bind_eq_ok, Outcome.pure_eq_ok] at h
  obtain ⟨q, -, rfl⟩ := h
  exact Filter.demands_conjoin rfl (by simp)

/-- Under the grant, reading, changing and deleting the item with a key of a collection reach the
row with this very key and no other. -/
structure Grant.Addresses (grant : Grant) (x : Context) (c : Collection) (key : String) : Prop where
  /-- Reading demands the key. -/
  reading : ∀ fields p, x.itemPlan grant c key fields = .ok p →
    p.filter.Demands (c.keyCondition (.text key))
  /-- Changing and deleting demand the key. -/
  writing : ∀ s, grant.rowSecurity c x.resolver (.text key) = .ok s →
    s.filter.Demands (c.keyCondition (.text key))

/-- A text that stands for itself is demanded as it is, under every grant. -/
theorem Grant.addresses_of_keeps {x : Context} (h : x.resolver.Keeps key) (grant : Grant)
    (c : Collection) : grant.Addresses x c key := by
  constructor
  case reading =>
    intro fields p hp
    exact Context.itemPlan_demands hp
  case writing =>
    intro s hs
    rcases Grant.rowSecurity_demands hs with hnone | ⟨v, hv, hscalar, hdemands⟩
    · exact .inl hnone
    · rwa [h v hv hscalar] at hdemands

/-- A text that stands for another key is not demanded, not even without rules. -/
theorem Grant.keeps_of_addresses {x : Context}
    (h : ∀ (grant : Grant) c, grant.denied = false → grant.Addresses x c key) :
    x.resolver.Keeps key := by
  intro v hv hscalar
  let c : Collection := ⟨"items", "", false, [], []⟩
  have hfilter : x.resolver.resolveFilter (c.keyCondition (.text key)) = .ok (c.keyCondition v) :=
    Resolver.resolveCondition_key.2 ⟨v, hv, hscalar, rfl⟩
  have hs : Grant.admin.rowSecurity c x.resolver (.text key) = .ok ⟨c.keyCondition v, []⟩ := by
    simp only [Grant.rowSecurity, Outcome.bind_eq_ok, Outcome.pure_eq_ok]
    exact ⟨_, hfilter, (), rfl, [], rfl, rfl⟩
  rcases (h .admin c rfl).writing _ hs with hnone | hmem
  · cases hnone
  · cases List.mem_singleton.1 hmem
    rfl

namespace Context

variable {x : Context} {collection : String}

/-! ## The key of a changed row -/

/-- A row that has the key still has it after a change that gives it no other. -/
theorem hasKey_updatedValues {record stored : Record} (h : c.HasKey record (.text key))
    (hstored : stored.find? c.primaryKey = none) :
    c.HasKey (record.putAll (updatedValues c (.text key) stored)) (.text key) := by
  rw [updatedValues]
  split
  · have hget : Record.get (record.putAll [(c.primaryKey, .text key)]) c.primaryKey =
        .text key := by
      have hfind := Named.find?_insert_self record c.primaryKey (.text key)
      exact congrArg (Option.getD · Value.null) hfind
    rw [Collection.HasKey, hget, Value.matchesValue_text, beq_self_eq_true]
  · have hnames : c.primaryKey ∉ Named.names stored := by
      intro hmem
      obtain ⟨entry, hentry, hname⟩ := List.mem_map.1 hmem
      have hother := List.lookup_eq_none_iff.1 hstored entry hentry
      simp [hname] at hother
    rwa [Collection.HasKey, Record.get, Named.find?_putAll_of_notMem _ hnames]

/-- What the operations on the item with a key execute reaches the row with this very key and no
other. -/
structure Addresses (x : Context) (collection key : String) : Prop where
  /-- Reading executes statements of a plan that demands the key. -/
  reading : ∀ fields db s,
    .execute s ∈ ((x.readItem collection key fields).run db []).1 →
      ∃ c, ∃ p : Plan, x.catalog.find collection = .ok c ∧ p.Reads x.catalog s ∧
        p.filter.Demands (c.keyCondition (.text key))
  /-- Deleting executes a statement for rows that have the key. -/
  deleting : ∀ db s, .execute s ∈ ((x.deleteItem collection key).run db []).1 →
    ∃ c f relConditions change, x.catalog.find collection = .ok c ∧ s = .change change ∧
      Sql.deleteRows x.catalog collection f relConditions = .ok change ∧
      f.Demands (c.keyCondition (.text key)) ∧
      ∀ record, f.Holds record → c.HasKey record (.text key)
  /-- Changing executes a statement for rows that have the key, and leaves it to them if the payload
  sets no other. -/
  changing : ∀ data db past values, x.ChangesRow collection key data db past values →
    ∃ r, x.change collection key data = .ok r ∧
      r.security.filter.Demands (r.collection.keyCondition (.text key)) ∧
      ∀ record, r.security.filter.Holds record →
        r.collection.HasKey record (.text key) ∧
        (r.payload.values.find? r.collection.primaryKey = none →
          r.collection.primaryKey ∉ Payload.keyColumns r.payload.related →
          r.collection.HasKey (record.putAll values) (.text key))

/-- A text that stands for itself addresses the row with this key. -/
theorem addresses_of_keeps (h : x.resolver.Keeps key) : x.Addresses collection key := by
  constructor
  case reading =>
    intro fields db s hs
    rcases Dialogue.mem_run hs with hpast | hs
    · cases hpast
    · obtain ⟨grant, c, p, -, hc, hp, hreads⟩ := reads_of_says_readItem hs
      exact ⟨c, p, hc, hreads, (Grant.addresses_of_keeps h grant c).reading fields p hp⟩
  case deleting =>
    intro db s hs
    rcases Dialogue.mem_run hs with hpast | hs
    · cases hpast
    · obtain ⟨grant, c, security, change, -, hc, hsecurity, hchange, rfl⟩ :=
        deletes_of_says_deleteItem hs
      have hdemands := (Grant.addresses_of_keeps h grant c).writing security hsecurity
      exact ⟨c, _, _, change, hc, rfl, hchange, hdemands, fun record hrecord =>
        Collection.hasKey_of_holds (hdemands.holds hrecord)⟩
  case changing =>
    rintro data db past values ⟨r, before, stored, change, hr, hrun, rfl, -, -⟩
    obtain ⟨grant, -, -, hsecurity⟩ := security_of_change hr
    have hdemands := (Grant.addresses_of_keeps h grant r.collection).writing _ hsecurity
    refine ⟨r, hr, hdemands, fun record hrecord => ?_⟩
    have hkey := Collection.hasKey_of_holds (hdemands.holds hrecord)
    refine ⟨hkey, fun hvalues hcolumns => hasKey_updatedValues hkey ?_⟩
    obtain ⟨keys, -, rfl⟩ := (Payload.stores_of_run hrun).keys
    rw [Payload.find?_withKeys hcolumns, hvalues]

end Context

/-- **Which item is addressed.** Whatever the grant and the collection, the filters that reading,
changing and deleting an item execute demand its key as it was given iff the text stands for itself
or for nothing that could be a key. Then the statements for the item reach rows with that very key
only, and a change that sets no key leaves it to them. Every text that is no token stands for
itself. -/
theorem item_addressed_iff (x : Context) (key : String) :
    ((∀ (grant : Grant) (c : Collection), grant.denied = false → grant.Addresses x c key) ↔
      x.resolver.Keeps key) ∧
    (x.resolver.Keeps key → ∀ collection, x.Addresses collection key) ∧
    (Variable.ofText? key = none → x.resolver.Keeps key) :=
  ⟨⟨Grant.keeps_of_addresses, fun h grant c _ => Grant.addresses_of_keeps h grant c⟩,
    fun h _ => Context.addresses_of_keeps h, Resolver.keeps_of_ofText?⟩

namespace Sample

/-- The relation of a writer to the posts. -/
def written : Relation :=
  ⟨"posts", .oneToMany, "posts", some "author_id", none, none, none⟩

/-- Writers with their posts. -/
def writers : Collection where
  name := "writers"
  table := "writers"
  paranoid := false
  fields := [⟨"id", .string, true, false⟩, ⟨"name", .string, false, true⟩]
  relations := [written]

/-- What an administrator's requests about writers are answered from. -/
def administration : Context where
  reader := ⟨⟨[writers, posts]⟩, 7⟩
  snapshot := Snapshot.empty
  caller := { editor with user := some ⟨.text "user-1", .text "admin", true, []⟩ }
  now := noon

/-- A change of nothing but the posts of the writer whose key is the administrator's own. -/
def ownPostsChange : Context.RowChange :=
  ⟨writers, ⟨writers.keyCondition (.text "user-1"), []⟩, ⟨[], [⟨written, "id", [], []⟩]⟩⟩

end Sample

/-- A key that is no token addresses its item. -/
theorem item_addressed_writer : Sample.administration.Addresses "writers" "user-2" := by
  obtain ⟨-, haddresses, hkeeps⟩ := item_addressed_iff Sample.administration "user-2"
  exact haddresses (hkeeps (by rfl)) "writers"

/-- The token for the administrator's own key does not: a change of the posts behind it reaches the
row with the administrator's key and gives it the token for a key. -/
theorem own_writer_renamed :
    (∃ db past, Sample.administration.ChangesRow "writers" "$CURRENT_USER" [("posts", .list [])]
      db past [("id", .text "$CURRENT_USER")]) ∧
    Sample.administration.change "writers" "$CURRENT_USER" [("posts", .list [])] =
      .ok Sample.ownPostsChange ∧
    Sample.ownPostsChange.security.filter.Holds [("id", .text "user-1")] ∧
    ¬ Sample.administration.Addresses "writers" "$CURRENT_USER" := by
  have hr : Sample.administration.change "writers" "$CURRENT_USER" [("posts", .list [])] =
      .ok Sample.ownPostsChange := by rfl
  have hstores : Sample.ownPostsChange.payload.Stores Sample.administration.catalog [] := by
    refine ⟨fun w hw row hrow => ?_, [], rfl, rfl⟩
    obtain rfl := List.mem_singleton.1 hw
    cases hrow
  have hrow : Sample.ownPostsChange.security.filter.Holds [("id", .text "user-1")] := by
    show Condition.evaluate ⟨"id", .eq, .text "user-1", none⟩ [("id", .text "user-1")] = .ok .holds
    rw [Condition.evaluate_text (s := "user-1") (by decide) rfl, beq_self_eq_true]
    rfl
  obtain ⟨db, past, hchanges⟩ := (Context.exists_changesRow_iff hr).2 ⟨[], hstores, rfl, _, rfl⟩
  refine ⟨⟨db, past, hchanges⟩, hr, hrow, fun haddresses => ?_⟩
  obtain ⟨r, hr', -, hkey⟩ := haddresses.changing _ db past _ hchanges
  cases hr.symm.trans hr'
  have hother := Value.matchesValue_text "user-1" "$CURRENT_USER"
  exact absurd (Except.ok.inj (hother.symm.trans (hkey _ hrow).1)) (by decide)

end Warden
