import Mathlib.Data.List.Perm.Basic
import Warden.Proofs.Named
import Warden.Proofs.Schema.JoinKeys
import Warden.Proofs.Value.Equality

/-! # Collections of stored definitions

Payloads, plans and statements rely on collections in which every name says one thing and every
relation has the columns it joins (**`Collection.WellFormed`**). A definition is read in two steps:

* its members become fields and relations under their own names, each name for one of them
  (`Collection.exists_names_of_readMembers`), or the definition is turned down;
* the columns for keys that are not declared are added, so that every relation to one row has its
  column (`Collection.declares_of_addForeignKeys`). A key that cannot be looked up breaks this off.

Nothing looks at the keys but the second step, so whether the collection is well-formed depends on
them (**`Relation.KeysFit`**, **`definition_well_formed_iff`**). -/

namespace Warden

/-! ## Well-formed collections -/

/-- The field is the one for a key: the key itself, or one that is equal to it. -/
def Field.IsFor (f : Field Value) (key : Value) : Prop :=
  f.name = key ∨ f.name.same key = true

theorem Field.isFor_text_iff {f : Field Value} {s : String} :
    f.IsFor (.text s) ↔ f.name = .text s :=
  ⟨fun h => h.elim id Value.eq_text_of_same, .inl⟩

/-- The key is a text with characters. -/
def IsName (key : Option Value) : Prop :=
  ∃ s, key = some (.text s) ∧ s ≠ ""

namespace Collection

/-- Every name is that of one field, and the relations to one row have theirs. -/
structure Declares (fields : List (Field Value)) (relations : List (Relation Value)) : Prop where
  /-- No two fields have the same name. -/
  distinct : fields.Pairwise fun f g => f.name.same g.name = false
  /-- The column with the key of the other row is a field. -/
  declared : ∀ r ∈ relations, r.isToOne = true →
    ∃ key, r.foreignKey = some key ∧ ∃ f ∈ fields, f.IsFor key

/-- Names and join keys are as all use of a collection expects them. -/
structure WellFormed (c : Collection Value) : Prop extends Declares c.fields c.relations where
  /-- No name is that of a field and of a relation. -/
  apart : ∀ f ∈ c.fields, ∀ r ∈ c.relations, f.name ≠ .text r.name
  /-- The target's column for the key of this row has a name. -/
  owned : ∀ r ∈ c.relations, r.type = .oneToMany → IsName r.foreignKey
  /-- The joining table and its two columns have names. -/
  joined : ∀ r ∈ c.relations, r.type = .manyToMany →
    IsName r.through ∧ IsName r.sourceKey ∧ IsName r.targetKey

end Collection

/-- The keys of a relation, as they are given or made up, are what a well-formed collection needs
beside relations with certain names. -/
structure Relation.KeysFit (r : Relation Value) (names : List String) : Prop where
  /-- The key of the other row can be looked up among the fields. -/
  hashable : r.isToOne = true → ∀ key, r.foreignKey = some key → key.hashable = true
  /-- The column for it is not named like a relation. -/
  free : r.isToOne = true → ∀ name ∈ names, r.foreignKey ≠ some (.text name)
  /-- What a relation to many rows joins is named by texts. -/
  named : r.isToOne = false → ∀ key ∈ r.joinKeys, ∃ s, key = some (.text s)

namespace Relation

variable {r : Relation Value}

theorem joinKeys_of_isToOne (h : r.isToOne = true) : r.joinKeys = [r.foreignKey] := by
  unfold joinKeys
  unfold isToOne at h
  cases htype : r.type with
  | manyToMany =>
      rw [htype] at h
      cases h
  | oneToMany | manyToOne | oneToOne => rfl

/-- Where the keys count as true, those of a relation to many rows are texts iff they are names. -/
theorem forall_joinKeys_iff (htruthy : ∀ key ∈ r.joinKeys, ∃ v, key = some v ∧ v.truthy = true) :
    (r.isToOne = false → ∀ key ∈ r.joinKeys, ∃ s, key = some (.text s)) ↔
      (r.type = .oneToMany → IsName r.foreignKey) ∧
      (r.type = .manyToMany → IsName r.through ∧ IsName r.sourceKey ∧ IsName r.targetKey) := by
  have hname : ∀ key ∈ r.joinKeys, (∃ s, key = some (.text s)) ↔ IsName key := by
    intro key hkey
    obtain ⟨v, rfl, hv⟩ := htruthy key hkey
    refine exists_congr fun s => (and_iff_left_of_imp fun h => ?_).symm
    cases h
    simpa [Value.truthy] using hv
  simp only [forall₂_congr hname, isToOne]
  cases htype : r.type with
  | manyToOne | oneToOne => simp [RelationType.isToOne]
  | oneToMany => simp [RelationType.isToOne, joinKeys, htype]
  | manyToMany => simp [RelationType.isToOne, joinKeys, htype, and_comm]

end Relation

/-! ## Members -/

/-- A computation that is turned down only for the data to be stored. -/
def Outcome.Validates {α : Type} (x : Outcome α) : Prop :=
  ∀ e, x = .error e → ∃ reason, e = .refused reason ∧ reason.sort = .validation

theorem Outcome.validates_ok {α : Type} (a : α) : Validates (.ok a) := by
  intro e h
  cases h

theorem Outcome.Validates.bind {α β : Type} {x : Outcome α} {f : α → Outcome β} (hx : Validates x)
    (hf : ∀ a, Validates (f a)) : Validates (x >>= f) := by
  cases x with
  | ok a => exact hf a
  | error e =>
      rintro _ ⟨⟩
      exact hx e rfl

theorem Relation.validates_ofSpec (collection name : String) (spec : Record) :
    Outcome.Validates (Relation.ofSpec collection name spec) := by
  intro e h
  unfold Relation.ofSpec at h
  simp only at h
  split at h
  case h_2 => exact ⟨_, (Except.error.inj h).symm, rfl⟩
  case h_1 =>
    split at h
    case h_2 => exact ⟨_, (Except.error.inj h).symm, rfl⟩
    case h_1 =>
      split at h
      case isTrue => exact ⟨_, (Except.error.inj h).symm, rfl⟩
      case isFalse => cases h

theorem Field.validates_ofSpec (collection name : String) (spec : Record) :
    Outcome.Validates (Field.ofSpec collection name spec) := by
  intro e h
  unfold Field.ofSpec at h
  simp only at h
  split at h
  case h_1 => cases h
  case h_2 => exact ⟨_, (Except.error.inj h).symm, rfl⟩

/-- A relation is stored under its own name. -/
theorem Relation.name_of_ofSpec {collection name : String} {spec : Record} {r : Relation Value}
    (h : Relation.ofSpec collection name spec = .ok r) : r.name = name := by
  unfold Relation.ofSpec at h
  simp only at h
  split at h
  case h_2 => exact absurd h (Outcome.refuse_ne_ok _ _)
  case h_1 =>
    split at h
    case h_2 => exact absurd h (Outcome.refuse_ne_ok _ _)
    case h_1 =>
      split at h
      case isTrue => exact absurd h (Outcome.refuse_ne_ok _ _)
      case isFalse =>
        obtain rfl := Outcome.pure_eq_ok.1 h
        split <;> rfl

/-- A field is stored under its own name. -/
theorem Field.name_of_ofSpec {collection name : String} {spec : Record} {f : Field Value}
    (h : Field.ofSpec collection name spec = .ok f) : f.name = .text name := by
  unfold Field.ofSpec at h
  simp only at h
  split at h
  case h_1 =>
    obtain rfl := Except.ok.inj h
    rfl
  case h_2 => exact absurd h (Outcome.refuse_ne_ok _ _)

namespace Collection

variable {collection : String} {members : Record} {fields fields' : List (Field Value)}
  {relations : List (Relation Value)}

theorem validates_readMembers (collection : String) (members : Record) :
    Outcome.Validates (readMembers collection members) := by
  induction members with
  | nil => exact Outcome.validates_ok _
  | cons entry members ih =>
      obtain ⟨name, v⟩ := entry
      cases v with
      | record spec =>
          rw [readMembers]
          split
          case isTrue =>
            exact (Relation.validates_ofSpec _ _ _).bind fun _ =>
              ih.bind fun _ => Outcome.validates_ok _
          case isFalse =>
            exact (Field.validates_ofSpec _ _ _).bind fun _ =>
              ih.bind fun _ => Outcome.validates_ok _
      | _ =>
          rintro _ ⟨⟩
          exact ⟨_, rfl, rfl⟩

/-- Every member becomes a field or a relation of its name. -/
theorem exists_names_of_readMembers
    (h : readMembers collection members = .ok (fields, relations)) :
    ∃ names : List String, fields.map (·.name) = names.map .text ∧
      (names ++ relations.map (·.name)).Perm (Named.names members) := by
  induction members generalizing fields relations with
  | nil =>
      cases h
      exact ⟨[], rfl, .refl _⟩
  | cons entry members ih =>
      obtain ⟨name, v⟩ := entry
      cases v with
      | record spec =>
          rw [readMembers] at h
          split at h
          case isTrue =>
            obtain ⟨r, hr, h⟩ := Outcome.bind_eq_ok.1 h
            obtain ⟨⟨fields, relations⟩, hrest, h⟩ := Outcome.bind_eq_ok.1 h
            cases Outcome.pure_eq_ok.1 h
            obtain ⟨names, hnames, hperm⟩ := ih hrest
            refine ⟨names, hnames, ?_⟩
            rw [List.map_cons, Relation.name_of_ofSpec hr]
            exact List.perm_middle.trans (hperm.cons name)
          case isFalse =>
            obtain ⟨f, hf, h⟩ := Outcome.bind_eq_ok.1 h
            obtain ⟨⟨fields, relations⟩, hrest, h⟩ := Outcome.bind_eq_ok.1 h
            cases Outcome.pure_eq_ok.1 h
            obtain ⟨names, hnames, hperm⟩ := ih hrest
            refine ⟨name :: names, ?_, hperm.cons name⟩
            rw [List.map_cons, Field.name_of_ofSpec hf, hnames, List.map_cons]
      | _ => exact absurd h (Outcome.refuse_ne_ok _ _)

/-! ## Columns for keys -/

/-- The column that is added for a key. -/
def keyColumn (key : Value) : Field Value :=
  ⟨key, .uuid, false, true⟩

/-- Columns can be added iff every key of a relation to one row can be looked up. -/
theorem exists_addForeignKeys_iff (relations : List (Relation Value))
    (fields : List (Field Value)) :
    (∃ all, addForeignKeys relations fields = .ok all) ↔
      ∀ r ∈ relations, r.isToOne = true → ∀ key, r.foreignKey = some key → key.hashable = true := by
  fun_induction addForeignKeys relations fields with
  | case1 fields => exact iff_of_true ⟨fields, rfl⟩ (List.forall_mem_nil _)
  | case2 r rest fields key hkey hone hhash =>
      refine iff_of_false (fun ⟨_, h⟩ => Outcome.breakOff_ne_ok _ _ h) fun h => ?_
      rw [h r List.mem_cons_self hone key hkey] at hhash
      cases hhash
  | case3 r rest fields key hkey hone hhash hfound ih =>
      rw [ih, List.forall_mem_cons]
      refine (and_iff_right fun _ other hother => ?_).symm
      cases hkey.symm.trans hother
      simpa using hhash
  | case4 r rest fields key hkey hone hhash hnew ih =>
      rw [ih, List.forall_mem_cons]
      refine (and_iff_right fun _ other hother => ?_).symm
      cases hkey.symm.trans hother
      simpa using hhash
  | case5 r rest fields hother ih =>
      rw [ih, List.forall_mem_cons]
      exact (and_iff_right fun hone key hkey => (hother key hone hkey).elim).symm

/-- Adding columns is broken off in one way only. -/
theorem addForeignKeys_eq_error {e : Failure} (h : addForeignKeys relations fields = .error e) :
    e = .broken .wrongKind := by
  fun_induction addForeignKeys relations fields with
  | case1 => cases h
  | case2 =>
      cases h
      rfl
  | case3 _ _ _ _ _ _ _ _ ih => exact ih h
  | case4 _ _ _ _ _ _ _ _ ih => exact ih h
  | case5 _ _ _ _ ih => exact ih h

/-- What holds of fields and is kept by the columns for keys that are not among them, holds once
all columns are added. -/
theorem addForeignKeys_induction {P : List (Field Value) → Prop}
    (h : addForeignKeys relations fields = .ok fields') (hfields : P fields)
    (hadd : ∀ r ∈ relations, r.isToOne = true → ∀ key, r.foreignKey = some key →
      ∀ known : List (Field Value), (∀ f ∈ known, f.name.same key = false) → P known →
        P (known ++ [keyColumn key])) : P fields' := by
  fun_induction addForeignKeys relations fields with
  | case1 =>
      cases h
      exact hfields
  | case2 => exact absurd h (Outcome.breakOff_ne_ok _ _)
  | case3 r rest fields key hkey hone hhash hfound ih =>
      exact ih h hfields (List.forall_mem_cons.1 hadd).2
  | case4 r rest fields key hkey hone hhash hnew ih =>
      obtain ⟨hfirst, hrest⟩ := List.forall_mem_cons.1 hadd
      have hknown : ∀ f ∈ fields, f.name.same key = false := by simpa using hnew
      exact ih h (hfirst hone key hkey fields hknown hfields) hrest
  | case5 r rest fields hother ih => exact ih h hfields (List.forall_mem_cons.1 hadd).2

/-- Fields stay when columns are added. -/
theorem subset_of_addForeignKeys (h : addForeignKeys relations fields = .ok fields') :
    fields ⊆ fields' :=
  addForeignKeys_induction h (List.Subset.refl _) fun _ _ _ _ _ _ _ hknown =>
    List.subset_append_of_subset_left _ hknown

/-- Every relation to one row has its column once the columns are added. -/
theorem exists_isFor_of_addForeignKeys (h : addForeignKeys relations fields = .ok fields')
    {r : Relation Value} (hr : r ∈ relations) (hone : r.isToOne = true) {key : Value}
    (hkey : r.foreignKey = some key) : ∃ f ∈ fields', f.IsFor key := by
  fun_induction addForeignKeys relations fields with
  | case1 => cases hr
  | case2 => exact absurd h (Outcome.breakOff_ne_ok _ _)
  | case3 first rest fields other hother _ _ hfound ih =>
      rcases List.mem_cons.1 hr with rfl | hr
      · cases hkey.symm.trans hother
        obtain ⟨f, hf, hsame⟩ := List.any_eq_true.1 hfound
        exact ⟨f, subset_of_addForeignKeys h hf, .inr hsame⟩
      · exact ih h hr
  | case4 first rest fields other hother _ _ _ ih =>
      rcases List.mem_cons.1 hr with rfl | hr
      · cases hkey.symm.trans hother
        have hlast : keyColumn key ∈ fields ++ [keyColumn key] := by simp
        exact ⟨_, subset_of_addForeignKeys h hlast, .inl rfl⟩
      · exact ih h hr
  | case5 first rest fields hnone ih =>
      rcases List.mem_cons.1 hr with rfl | hr
      · exact (hnone key hone hkey).elim
      · exact ih h hr

/-- The columns are added to distinct members, so names stay distinct, and every relation to one row
has a key to add a column for. -/
theorem declares_of_addForeignKeys (hnames : (Named.names members).Nodup)
    (hread : readMembers collection members = .ok (fields, relations))
    (h : addForeignKeys relations fields = .ok fields') : Declares fields' relations where
  distinct := by
    obtain ⟨names, hfields, hperm⟩ := exists_names_of_readMembers hread
    have hdistinct : fields.Pairwise fun f g => f.name.same g.name = false := by
      have hnodup : names.Nodup := (List.nodup_append.1 (hperm.nodup_iff.2 hnames)).1
      rw [← List.pairwise_map (R := fun v w : Value => v.same w = false), hfields,
        List.pairwise_map]
      exact hnodup.imp fun hne => by rw [Value.same_text, decide_eq_false hne]
    refine addForeignKeys_induction h hdistinct fun r _ _ key _ known hnew hknown => ?_
    rw [List.pairwise_append]
    exact ⟨hknown, List.pairwise_singleton _ _, fun f hf g hg =>
      List.mem_singleton.1 hg ▸ hnew f hf⟩
  declared := by
    intro r hr hone
    obtain ⟨name, spec, hspec⟩ := exists_ofSpec_of_readMembers hread hr
    have hmem : r.foreignKey ∈ r.joinKeys := by
      rw [Relation.joinKeys_of_isToOne hone]
      exact List.mem_singleton_self _
    obtain ⟨key, hkey, -⟩ := Relation.truthy_of_ofSpec hspec _ hmem
    exact ⟨key, hkey, exists_isFor_of_addForeignKeys h hr hone hkey⟩

/-- Fields come from members or are columns for keys. -/
theorem mem_or_exists_of_addForeignKeys (h : addForeignKeys relations fields = .ok fields') :
    ∀ f ∈ fields',
      f ∈ fields ∨ ∃ r ∈ relations, r.isToOne = true ∧ r.foreignKey = some f.name := by
  refine addForeignKeys_induction
    (P := fun known => ∀ f ∈ known,
      f ∈ fields ∨ ∃ r ∈ relations, r.isToOne = true ∧ r.foreignKey = some f.name)
    h (fun f hf => .inl hf) fun r hr hone key hkey known _ hknown => ?_
  rw [List.forall_mem_append, List.forall_mem_singleton]
  exact ⟨hknown, .inr ⟨r, hr, hone, hkey⟩⟩

/-- Fields and relations have different names iff no column for a key is named like a relation. -/
theorem forall_apart_iff (hnames : (Named.names members).Nodup)
    (hread : readMembers collection members = .ok (fields, relations))
    (h : addForeignKeys relations fields = .ok fields') :
    (∀ f ∈ fields', ∀ r ∈ relations, f.name ≠ .text r.name) ↔
      ∀ r ∈ relations, r.isToOne = true → ∀ name ∈ relations.map (·.name),
        r.foreignKey ≠ some (.text name) := by
  constructor
  · intro hapart r hr hone name hname hkey
    obtain ⟨f, hf, hfor⟩ := exists_isFor_of_addForeignKeys h hr hone hkey
    obtain ⟨other, hother, rfl⟩ := List.mem_map.1 hname
    exact hapart f hf other hother (Field.isFor_text_iff.1 hfor)
  · intro hfree f hf r hr heq
    have hmem : r.name ∈ relations.map (·.name) := List.mem_map_of_mem hr
    rcases mem_or_exists_of_addForeignKeys h f hf with hf | ⟨other, hother, hone, hkey⟩
    · obtain ⟨names, hfields, hperm⟩ := exists_names_of_readMembers hread
      have hdisjoint := (List.nodup_append.1 (hperm.nodup_iff.2 hnames)).2.2
      have hfield : f.name ∈ names.map Value.text := hfields ▸ List.mem_map_of_mem hf
      obtain ⟨name, hname, hfield⟩ := List.mem_map.1 hfield
      exact hdisjoint name hname r.name hmem (Value.text.inj (hfield.trans heq))
    · exact hfree other hother hone r.name hmem (heq ▸ hkey)

/-- A collection of distinct members is well-formed iff the keys of its relations fit. -/
theorem wellFormed_iff {c : Collection Value} (hnames : (Named.names members).Nodup)
    (hread : readMembers collection members = .ok (fields, c.relations))
    (h : addForeignKeys c.relations fields = .ok c.fields) :
    c.WellFormed ↔ ∀ r ∈ c.relations, r.KeysFit (c.relations.map (·.name)) := by
  have htruthy : ∀ r ∈ c.relations, ∀ key ∈ r.joinKeys, ∃ v, key = some v ∧ v.truthy = true := by
    intro r hr
    obtain ⟨_, _, hspec⟩ := exists_ofSpec_of_readMembers hread hr
    exact Relation.truthy_of_ofSpec hspec
  have hjoins (r : Relation Value) (hr : r ∈ c.relations) :=
    Relation.forall_joinKeys_iff (htruthy r hr)
  have hapart := forall_apart_iff hnames hread h
  constructor
  · intro hc r hr
    exact {
      hashable := (exists_addForeignKeys_iff _ _).1 ⟨_, h⟩ r hr
      free := hapart.1 hc.apart r hr
      named := (hjoins r hr).2 ⟨hc.owned r hr, hc.joined r hr⟩ }
  · intro hfit
    exact {
      toDeclares := declares_of_addForeignKeys hnames hread h
      apart := hapart.2 fun r hr => (hfit r hr).free
      owned := fun r hr => ((hjoins r hr).1 (hfit r hr).named).1
      joined := fun r hr => ((hjoins r hr).1 (hfit r hr).named).2 }

/-! ## Definitions -/

variable {d : Record}

/-- A definition is turned down unless members are read in it. -/
theorem refused_or_read (name : String) (d : Record) :
    (∃ reason, ofDefinition name (.record d) = refuse reason ∧ reason.sort = .validation) ∨
    ∃ members fields relations, d.get "fields" = .record members ∧ members ≠ [] ∧
      readMembers name members = .ok (fields, relations) := by
  cases hget : d.get "fields" with
  | record members =>
      cases members with
      | nil =>
          left
          simp only [ofDefinition, hget]
          exact ⟨_, rfl, rfl⟩
      | cons first members =>
          cases hread : readMembers name (first :: members) with
          | ok both => exact .inr ⟨_, both.1, both.2, rfl, List.cons_ne_nil _ _, hread⟩
          | error e =>
              obtain ⟨reason, rfl, hreason⟩ := validates_readMembers _ _ e hread
              left
              simp only [ofDefinition, hget, hread]
              exact ⟨reason, rfl, hreason⟩
  | _ =>
      left
      simp only [ofDefinition, hget]
      exact ⟨_, rfl, rfl⟩

/-- Once members are read, only the columns for keys can fail. -/
theorem ends_of_read (hget : d.get "fields" = .record members) (hne : members ≠ [])
    (hread : readMembers collection members = .ok (fields, relations)) :
    (∃ c, ofDefinition collection (.record d) = .ok c ∧ c.relations = relations ∧
      addForeignKeys relations fields = .ok c.fields) ∨
    ofDefinition collection (.record d) = breakOff .wrongKind ∧
      ¬ ∃ all, addForeignKeys relations fields = .ok all := by
  cases members with
  | nil => exact absurd rfl hne
  | cons first members =>
      simp only [ofDefinition, hget, hread, Outcome.ok_bind]
      cases hadd : addForeignKeys relations fields with
      | ok all => exact .inl ⟨_, rfl, rfl, rfl⟩
      | error e =>
          obtain rfl := addForeignKeys_eq_error hadd
          exact .inr ⟨rfl, nofun⟩

/-- A definition that is turned down has no relations, or its members cannot be read. -/
theorem relations_eq_nil_of_refused {reason : Refusal}
    (h : ofDefinition collection (.record d) = refuse reason)
    (hget : d.get "fields" = .record members)
    (hread : readMembers collection members = .ok (fields, relations)) : relations = [] := by
  cases members with
  | nil =>
      cases hread
      rfl
  | cons first members =>
      rcases ends_of_read hget (List.cons_ne_nil _ _) hread with ⟨c, hc, -⟩ | ⟨hbroken, -⟩
      · cases h.symm.trans hc
      · cases h.symm.trans hbroken

end Collection

/-- **A definition is turned down or makes a well-formed collection iff the keys of its relations
fit.** Whatever the keys are, it is turned down as data not to be stored, reading it is broken off,
or the names of its fields are distinct and every relation to one row has its column. -/
theorem definition_well_formed_iff (name : String) (d : Record)
    (hnames : ∀ members, d.get "fields" = .record members → (Named.names members).Nodup) :
    (∀ e, Collection.ofDefinition name (.record d) = .error e →
      (∃ reason, e = .refused reason ∧ reason.sort = .validation) ∨ e = .broken .wrongKind) ∧
    (∀ c, Collection.ofDefinition name (.record d) = .ok c →
      Collection.Declares c.fields c.relations) ∧
    (((∃ reason, Collection.ofDefinition name (.record d) = refuse reason ∧
          reason.sort = .validation) ∨
        ∃ c, Collection.ofDefinition name (.record d) = .ok c ∧ c.WellFormed) ↔
      ∀ members fields relations, d.get "fields" = .record members →
        Collection.readMembers name members = .ok (fields, relations) →
        ∀ r ∈ relations, r.KeysFit (relations.map (·.name))) := by
  rcases Collection.refused_or_read name d with
    ⟨reason, hrefused, hreason⟩ | ⟨members, fields, relations, hget, hne, hread⟩
  · refine ⟨fun e he => ?_, fun c hc => ?_, iff_of_true (.inl ⟨reason, hrefused, hreason⟩) ?_⟩
    · cases hrefused.symm.trans he
      exact .inl ⟨reason, rfl, hreason⟩
    · cases hrefused.symm.trans hc
    · intro members fields relations hget hread
      rw [Collection.relations_eq_nil_of_refused hrefused hget hread]
      exact List.forall_mem_nil _
  · have hdistinct := hnames members hget
    have hiff : (∀ members' fields' relations', d.get "fields" = .record members' →
        Collection.readMembers name members' = .ok (fields', relations') →
        ∀ r ∈ relations', r.KeysFit (relations'.map (·.name))) ↔
          ∀ r ∈ relations, r.KeysFit (relations.map (·.name)) := by
      refine ⟨fun h => h members fields relations hget hread, fun h _ _ _ hget' hread' => ?_⟩
      cases hget.symm.trans hget'
      cases hread.symm.trans hread'
      exact h
    rw [hiff]
    rcases Collection.ends_of_read hget hne hread with ⟨c, hc, rfl, hadd⟩ | ⟨hbroken, hnone⟩
    · refine ⟨fun e he => ?_, fun c' hc' => ?_, ?_⟩
      · cases hc.symm.trans he
      · cases hc.symm.trans hc'
        exact Collection.declares_of_addForeignKeys hdistinct hread hadd
      · rw [← Collection.wellFormed_iff hdistinct hread hadd]
        constructor
        · rintro (⟨reason, hrefused, -⟩ | ⟨c', hc', hwell⟩)
          · cases hc.symm.trans hrefused
          · cases hc.symm.trans hc'
            exact hwell
        · exact fun hwell => .inr ⟨c, hc, hwell⟩
    · refine ⟨fun e he => ?_, fun c hc => ?_, iff_of_false ?_ fun hfit => ?_⟩
      · cases hbroken.symm.trans he
        exact .inr rfl
      · cases hbroken.symm.trans hc
      · rintro (⟨reason, hrefused, -⟩ | ⟨c, hc, -⟩)
        · cases hbroken.symm.trans hrefused
        · cases hbroken.symm.trans hc
      · exact hnone ((Collection.exists_addForeignKeys_iff _ _).2 fun r hr => (hfit r hr).hashable)

namespace Sample

/-- A definition of posts with a relation. -/
def postsWith (name relType target : String) (foreignKey : Value) : Record :=
  [("fields", .record [
    ("id", .record [("type", .text "UUID")]),
    (name, .record [("relType", .text relType), ("target", .text target),
      ("foreignKey", foreignKey)])])]

/-- A definition of posts with their writer. -/
def writtenPosts : Record :=
  postsWith "author" "M2O" "users" (.text "writer_id")

end Sample

/-- Posts have the author that one of their columns tells. -/
theorem definition_well_formed_iff_writer :
    (∀ members, Sample.writtenPosts.get "fields" = .record members →
      (Named.names members).Nodup) ∧
    ∃ c, Collection.ofDefinition "posts" (.record Sample.writtenPosts) = .ok c ∧ c.WellFormed := by
  have hget : Sample.writtenPosts.get "fields" = .record _ := rfl
  have hnames : ∀ members, Sample.writtenPosts.get "fields" = .record members →
      (Named.names members).Nodup := by
    rintro _ ⟨⟩
    decide
  have hfit : ∀ members fields relations, Sample.writtenPosts.get "fields" = .record members →
      Collection.readMembers "posts" members = .ok (fields, relations) →
      ∀ r ∈ relations, r.KeysFit (relations.map (·.name)) := by
    rintro _ _ _ ⟨⟩ ⟨⟩ r hr
    obtain rfl := List.mem_singleton.1 hr
    exact {
      hashable := by
        rintro - _ ⟨⟩
        rfl
      free := by
        rintro - name hname hkey
        obtain rfl := List.mem_singleton.1 hname
        exact absurd (Value.text.inj (Option.some.inj hkey)) (by decide)
      named := nofun }
  have hends := (definition_well_formed_iff "posts" Sample.writtenPosts hnames).2.2.2 hfit
  rcases hends with ⟨reason, hrefused, -⟩ | hwell
  · rcases Collection.ends_of_read hget (List.cons_ne_nil _ _)
      (show Collection.readMembers "posts" _ = _ from rfl) with ⟨c, hc, -⟩ | ⟨hbroken, -⟩
    · cases hrefused.symm.trans hc
    · cases hrefused.symm.trans hbroken
  · exact ⟨hnames, hwell⟩

/-- A key of a relation to many rows need not be a text, a relation to one row with a list as its
key breaks the reading off, and a relation may have the name of its own column. -/
theorem definitions_with_unfit_keys :
    (∃ c, Collection.ofDefinition "posts"
        (.record (Sample.postsWith "comments" "HasMany" "comments" (.int 5))) = .ok c ∧
      c.relations.map (·.foreignKey) = [some (.int 5)] ∧ ¬ c.WellFormed) ∧
    Collection.ofDefinition "posts"
        (.record (Sample.postsWith "author" "M2O" "users" (.list [.text "a"]))) =
      breakOff .wrongKind ∧
    ∃ c, Collection.ofDefinition "posts"
        (.record (Sample.postsWith "author" "M2O" "users" (.text "author"))) = .ok c ∧
      c.relations.map (·.name) = ["author"] ∧ (∃ f ∈ c.fields, f.name = .text "author") ∧
      ¬ c.WellFormed := by
  refine ⟨⟨_, rfl, rfl, fun hwell => ?_⟩, rfl, ?_⟩
  · obtain ⟨s, hs, -⟩ := hwell.owned _ List.mem_cons_self rfl
    cases hs
  · have hget : (Sample.postsWith "author" "M2O" "users" (.text "author")).get "fields" =
      .record _ := rfl
    rcases Collection.ends_of_read hget (List.cons_ne_nil _ _)
      (show Collection.readMembers "posts" _ = _ from rfl) with
      ⟨c, hc, hrelations, hadd⟩ | ⟨-, hnone⟩
    · obtain ⟨f, hf, hfor⟩ :=
        Collection.exists_isFor_of_addForeignKeys hadd List.mem_cons_self rfl rfl
      have hname : f.name = .text "author" := Field.isFor_text_iff.1 hfor
      refine ⟨c, hc, by rw [hrelations]; rfl, ⟨f, hf, hname⟩, fun hwell => ?_⟩
      exact hwell.apart f hf _ (hrelations ▸ List.mem_cons_self) hname
    · refine absurd ((Collection.exists_addForeignKeys_iff _ _).2 ?_) hnone
      rintro r hr - key hkey
      obtain rfl := List.mem_singleton.1 hr
      cases hkey
      rfl

end Warden
