import Warden.Schema.Definition
import Warden.Proofs.Outcome

/-! # Join keys of relations

A join along a relation needs the names of its keys, and is turned down without them. The keys of a
stored relation are made up where its definition gives none, so they are there whatever the
definitions are (**`Catalog.keyed_of_ofDefinitions`**). -/

namespace Warden

variable {k : Catalog}

/-! ## Keys -/

/-- The keys that a join along the relation needs. -/
def Relation.joinKeys {κ : Type} (r : Relation κ) : List (Option κ) :=
  match r.type with
  | .manyToMany => [r.through, r.targetKey, r.sourceKey]
  | .oneToMany | .manyToOne | .oneToOne => [r.foreignKey]

/-- Every key that a join along the relation needs has a name. -/
def Relation.Keyed (r : Relation) : Prop :=
  ∀ key ∈ r.joinKeys, ∃ name, key = some name ∧ name ≠ ""

/-- All relations have names for the keys that joins need. -/
def Catalog.Keyed (k : Catalog) : Prop :=
  ∀ c ∈ k.collections, ∀ r ∈ c.relations, r.Keyed

/-! ## Keys of definitions -/

theorem truthy_keyOr (v : Value) {name : String} (h : name ≠ "") :
    (keyOr v name).truthy = true := by
  rw [keyOr, Value.orElse]
  split
  case isTrue hv => exact hv
  case isFalse => simpa [Value.truthy] using h

/-- The keys of a relation that was read are there and count as true. -/
theorem Relation.truthy_of_ofSpec {collection name : String} {spec : Record} {r : Relation Value}
    (h : Relation.ofSpec collection name spec = .ok r) :
    ∀ key ∈ r.joinKeys, ∃ v, key = some v ∧ v.truthy = true := by
  have hkey (v : Value) {name : String} (hname : name ≠ "") :
      ∃ w, some (keyOr v name) = some w ∧ w.truthy = true :=
    ⟨_, rfl, truthy_keyOr v hname⟩
  have hid (before : String) : before ++ "_id" ≠ "" := by simp
  have hjunction (before : String) : before ++ "_junction" ≠ "" := by simp
  unfold Relation.ofSpec at h
  simp only at h
  split at h
  case h_2 => exact absurd h (Outcome.refuse_ne_ok _ _)
  case h_1 type _ =>
    split at h
    case h_2 => exact absurd h (Outcome.refuse_ne_ok _ _)
    case h_1 target _ =>
      split at h
      case isTrue => exact absurd h (Outcome.refuse_ne_ok _ _)
      case isFalse =>
        obtain rfl := Outcome.pure_eq_ok.1 h
        cases type with
        | manyToMany =>
            simp only [joinKeys, List.forall_mem_cons]
            exact ⟨hkey _ (hjunction _), hkey _ (hid _), hkey _ (hid _), List.forall_mem_nil _⟩
        | oneToMany | manyToOne | oneToOne =>
            simp only [joinKeys, List.forall_mem_singleton]
            exact hkey _ (hid _)

/-- The relations of a definition are those that were read in it. -/
theorem Collection.exists_ofSpec_of_readMembers {collection : String} {members : Record}
    {fields : List (Field Value)} {relations : List (Relation Value)}
    (h : readMembers collection members = .ok (fields, relations)) {r : Relation Value}
    (hr : r ∈ relations) : ∃ name spec, Relation.ofSpec collection name spec = .ok r := by
  induction members generalizing fields relations with
  | nil =>
      cases h
      cases hr
  | cons entry members ih =>
      obtain ⟨name, v⟩ := entry
      cases v with
      | record spec =>
          rw [readMembers] at h
          split at h
          case isTrue =>
            obtain ⟨first, hfirst, h⟩ := Outcome.bind_eq_ok.1 h
            obtain ⟨⟨_, rest⟩, hrest, h⟩ := Outcome.bind_eq_ok.1 h
            cases Outcome.pure_eq_ok.1 h
            rcases List.mem_cons.1 hr with rfl | hr
            · exact ⟨name, spec, hfirst⟩
            · exact ih hrest hr
          case isFalse =>
            obtain ⟨first, -, h⟩ := Outcome.bind_eq_ok.1 h
            obtain ⟨⟨_, rest⟩, hrest, h⟩ := Outcome.bind_eq_ok.1 h
            cases Outcome.pure_eq_ok.1 h
            exact ih hrest hr
      | _ => exact absurd h (Outcome.refuse_ne_ok _ _)

/-- The relations of a stored collection come from its definition. -/
theorem Collection.exists_ofSpec_of_ofDefinition {collection : String} {definition : Value}
    {c : Collection Value} (h : ofDefinition collection definition = .ok c) {r : Relation Value}
    (hr : r ∈ c.relations) : ∃ name spec, Relation.ofSpec collection name spec = .ok r := by
  unfold ofDefinition at h
  split at h
  case h_1 =>
    split at h
    case h_2 =>
      obtain ⟨⟨fields, relations⟩, hmembers, h⟩ := Outcome.bind_eq_ok.1 h
      obtain ⟨_, -, h⟩ := Outcome.bind_eq_ok.1 h
      obtain rfl := Outcome.pure_eq_ok.1 h
      exact exists_ofSpec_of_readMembers hmembers hr
    all_goals exact absurd h (Outcome.refuse_ne_ok _ _)
  case h_2 => exact absurd h (Outcome.breakOff_ne_ok _ _)

/-- A key that counts as true and is a text has a name. -/
theorem Collection.exists_name_of_keyText? {v : Value} (hv : v.truthy = true) {key : Option String}
    (h : keyText? (some v) = .ok key) : ∃ name, key = some name ∧ name ≠ "" := by
  obtain ⟨s, hs, h⟩ := Outcome.bind_eq_ok.1 h
  obtain rfl := Outcome.pure_eq_ok.1 h
  cases v with
  | text t =>
      cases hs
      exact ⟨_, rfl, by simpa [Value.truthy] using hv⟩
  | _ => exact absurd hs (Outcome.breakOff_ne_ok _ _)

/-- A relation whose keys count as true has names for them once they are texts. -/
theorem Collection.keyed_of_textualRelation {stored : Relation Value} {r : Relation}
    (hstored : ∀ key ∈ stored.joinKeys, ∃ v, key = some v ∧ v.truthy = true)
    (h : textualRelation stored = .ok r) : r.Keyed := by
  have hname {key : Option Value} {key' : Option String} (hmem : key ∈ stored.joinKeys)
      (hkey : keyText? key = .ok key') : ∃ name, key' = some name ∧ name ≠ "" := by
    obtain ⟨v, rfl, hv⟩ := hstored key hmem
    exact exists_name_of_keyText? hv hkey
  simp only [textualRelation, Outcome.bind_eq_ok, Outcome.pure_eq_ok] at h
  obtain ⟨foreignKey, hforeign, through, hthrough, sourceKey, hsource, targetKey, htarget, rfl⟩ := h
  intro key hkey
  cases htype : stored.type with
  | manyToMany =>
      simp only [Relation.joinKeys, htype, List.mem_cons, List.not_mem_nil, or_false] at hkey hname
      rcases hkey with rfl | rfl | rfl
      · exact hname (.inl rfl) hthrough
      · exact hname (.inr (.inl rfl)) htarget
      · exact hname (.inr (.inr rfl)) hsource
  | oneToMany | manyToOne | oneToOne =>
      simp only [Relation.joinKeys, htype, List.mem_singleton] at hkey hname
      rw [hkey]
      exact hname rfl hforeign

/-- Whatever the definitions, the relations of a catalog have names for the keys of joins. -/
theorem Catalog.keyed_of_ofDefinitions {definitions : Record}
    (h : Catalog.ofDefinitions definitions = .ok k) : k.Keyed := by
  obtain ⟨stored, hstored, h⟩ := Outcome.bind_eq_ok.1 h
  obtain ⟨collections, hcollections, h⟩ := Outcome.bind_eq_ok.1 h
  obtain rfl := Outcome.pure_eq_ok.1 h
  intro c hc r hr
  obtain ⟨d, hd, htextual⟩ := Outcome.exists_of_mem_mapM hcollections hc
  obtain ⟨⟨name, definition⟩, -, hdefinition⟩ := Outcome.exists_of_mem_mapM hstored hd
  simp only [Collection.textual, Outcome.bind_eq_ok, Outcome.pure_eq_ok] at htextual
  obtain ⟨_, -, relations, hrelations, rfl⟩ := htextual
  obtain ⟨r', hr', hread⟩ := Outcome.exists_of_mem_mapM hrelations hr
  obtain ⟨_, _, hspec⟩ := Collection.exists_ofSpec_of_ofDefinition hdefinition hr'
  exact Collection.keyed_of_textualRelation (Relation.truthy_of_ofSpec hspec) hread

end Warden
