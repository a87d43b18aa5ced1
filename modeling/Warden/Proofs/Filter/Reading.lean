import Warden.Filter.Parser
import Warden.Proofs.Filter.Folding

/-! # What filters are read from

A filter that is read is put together from conditions, each of which has been checked under the path
that leads to it, and nothing but the folding constructors puts them together. So whatever checked
conditions have and folding keeps (**`FilterReader.Invariant`**), all filters that are read have
(`Invariant.of_readMembers`); the induction is on the value that is read and follows the reader from
records to their members, to lists and to negations.

What a condition compares with is a part of the value that is read, or a truth value. So the same
goes for what checked conditions have whose values are of a kind (**`FilterReader.KindInvariant`**),
if parts of values of the kind belong to it as well (`FilterReader.Inherited`).

A tree passes the same checks iff each of its conditions does (`validate_eq_ok`). Conditions on
related rows are filters read of the entries of a record (`exists_of_mem_parseRelConditions`). -/

namespace Warden.FilterReader

variable {r : FilterReader} {collection base path : String} {P : Filter → Prop}

/-! ## Paths of conditions -/

/-- The text can be the path of a condition: it has characters and is not the name of a
connective. -/
structure IsPath (path : String) : Prop where
  /-- There is something to look up. -/
  nonempty : path.isEmpty = false
  /-- It does not ask for a conjunction. -/
  not_and : path ≠ "AND"
  /-- It does not ask for a disjunction. -/
  not_or : path ≠ "OR"
  /-- It does not ask for a negation. -/
  not_not : path ≠ "NOT"

/-- A path through relations is no connective: it has a dot. -/
theorem isPath_of_dot (h : '.' ∈ path.toList) : IsPath path := by
  refine ⟨?_, ?_, ?_, ?_⟩
  · rw [Bool.eq_false_iff]
    intro hempty
    rw [String.isEmpty_iff.1 hempty] at h
    cases h
  all_goals
    rintro rfl
    revert h
    decide

/-- What stands before the names of fields: nothing, or the relations on the way. -/
def IsBase (base : String) : Prop :=
  base = "" ∨ '.' ∈ base.toList

theorem isBase_empty : IsBase "" :=
  .inl rfl

theorem isBase_dot (path : String) : IsBase (path ++ ".") :=
  .inr (by simp)

/-- A name that is no connective gives a path, whatever stands before it. -/
theorem IsBase.isPath (h : IsBase base) {name : String} (hname : IsPath name) :
    IsPath (base ++ name) := by
  rcases h with rfl | h
  · rwa [String.empty_append]
  · refine isPath_of_dot ?_
    rw [String.toList_append]
    exact List.mem_append_left _ h

/-! ## Members -/

/-- The filter of one member of a record. -/
def readMember (r : FilterReader) (collection base name : String) (v : Value) : Outcome Filter :=
  if name == "AND" then (r.readList collection base name v).map Filter.conjoin
  else if name == "OR" then (r.readList collection base name v).map Filter.disjoin
  else if name == "NOT" then r.readNegation collection base v
  else r.readField collection (base ++ name) v

/-- A record is read member by member. -/
theorem readMembers_cons (name : String) (v : Value) (entries : Record) :
    r.readMembers collection base ((name, v) :: entries) =
      if name.isEmpty then refuse .emptyFilterKey
      else do
        let f ← r.readMember collection base name v
        return f :: (← r.readMembers collection base entries) := by
  rw [readMembers]
  split
  · rfl
  · unfold readMember
    split
    · rfl
    · split
      · rfl
      · split
        · rfl
        · rfl

/-- A list of records is read record by record. -/
theorem readItems_cons (connective : String) (entries : Record) (vs : List Value) :
    r.readItems collection base connective (.record entries :: vs) = (do
      let f ← (r.readMembers collection base entries).map Filter.conjoin
      return f :: (← r.readItems collection base connective vs)) := rfl

/-- A member that is no connective is read as a field. -/
theorem readMember_of_isPath {name : String} (h : IsPath name) (v : Value) :
    r.readMember collection base name v = r.readField collection (base ++ name) v := by
  rw [readMember, if_neg (by simpa using h.not_and), if_neg (by simpa using h.not_or),
    if_neg (by simpa using h.not_not)]

/-! ## Whatever is read -/

/-- A kind of values to which the parts belong that are read of a value of the kind, and all truth
values. -/
structure Inherited (Q : Value → Prop) : Prop where
  /-- Truth values belong to it. -/
  bool : ∀ b, Q (.bool b)
  /-- The values of a record's entries belong to it if the record does. -/
  entry : ∀ entries : Record, Q (.record entries) → ∀ entry ∈ entries, Q entry.2
  /-- The items of a list belong to it if the list does. -/
  item : ∀ items, Q (.list items) → ∀ v ∈ items, Q v
  /-- A list of fixed length may be taken for a list. -/
  list : ∀ items, Q (.tuple items) → Q (.list items)

/-- Checked conditions whose values are of a kind have the property, and folding keeps it. -/
structure KindInvariant (r : FilterReader) (collection : String) (Q : Value → Prop)
    (P : Filter → Prop) : Prop where
  /-- A condition that has been checked and whose value is of the kind has it. -/
  leaf : ∀ c : Condition, IsPath c.field → r.checkCondition collection c = .ok () → Q c.value →
    P (.leaf c)
  /-- Conjunctions keep it. -/
  conjoin : ∀ fs, (∀ f ∈ fs, P f) → P (.conjoin fs)
  /-- Disjunctions keep it. -/
  disjoin : ∀ fs, (∀ f ∈ fs, P f) → P (.disjoin fs)
  /-- Negations keep it. -/
  negate : ∀ f, P f → P (.negate f)

namespace KindInvariant

variable {Q : Value → Prop}

theorem of_condition (hP : KindInvariant r collection Q P) (hpath : IsPath path) {op : Operator}
    {v : Value} (hv : Q v) {cast : Option String} {f : Filter}
    (h : r.condition collection path op v cast = .ok f) : P f := by
  obtain ⟨_, hcheck, h⟩ := Outcome.bind_eq_ok.1 h
  obtain rfl := Outcome.pure_eq_ok.1 h
  exact hP.leaf _ hpath hcheck hv

theorem of_operatorConditions (hP : KindInvariant r collection Q P) (hQ : Inherited Q)
    (hpath : IsPath path) {cast : Option String} {members : Record}
    (hmembers : ∀ member ∈ members, Q member.2) {fs : List Filter}
    (h : r.operatorConditions collection path cast members = .ok fs) : ∀ f ∈ fs, P f := by
  induction members generalizing fs with
  | nil =>
      cases h
      exact List.forall_mem_nil _
  | cons member members ih =>
      obtain ⟨name, v⟩ := member
      obtain ⟨hv, hmembers⟩ := List.forall_mem_cons.1 hmembers
      -- a condition comes before those of the other members
      have hcons {op : Operator} {w : Value} (hw : Q w)
          (h : (do
            let f ← r.condition collection path op w cast
            return f :: (← r.operatorConditions collection path cast members)) = .ok fs) :
          ∀ f ∈ fs, P f := by
        obtain ⟨f, hf, h⟩ := Outcome.bind_eq_ok.1 h
        obtain ⟨rest, hrest, h⟩ := Outcome.bind_eq_ok.1 h
        obtain rfl := Outcome.pure_eq_ok.1 h
        exact List.forall_mem_cons.2 ⟨hP.of_condition hpath hw hf, ih hmembers hrest⟩
      rw [operatorConditions] at h
      split at h
      · exact ih hmembers h
      · split at h
        · split at h
          · exact hcons (hQ.bool _) h
          · obtain ⟨_, hrefuse, -⟩ := Outcome.bind_eq_ok.1 h
            cases hrefuse
        · obtain ⟨op, -, h⟩ := Outcome.bind_eq_ok.1 h
          exact hcons hv h

theorem of_readOperators (hP : KindInvariant r collection Q P) (hQ : Inherited Q)
    (hpath : IsPath path) {members : Record} (hmembers : ∀ member ∈ members, Q member.2)
    {f : Filter} (h : r.readOperators collection path members = .ok f) : P f := by
  obtain ⟨cast, -, h⟩ := Outcome.bind_eq_ok.1 h
  obtain ⟨fs, hfs, h⟩ := Outcome.bind_eq_ok.1 h
  split at h
  · cases h
  · obtain rfl := Outcome.pure_eq_ok.1 h
    exact hP.conjoin fs (hP.of_operatorConditions hQ hpath hmembers hfs)

mutual

/-- **What checked conditions have and folding keeps, every filter has that is read**, of a value of
the kind. -/
theorem of_readMembers (hP : KindInvariant r collection Q P) (hQ : Inherited Q) {base : String}
    (hbase : IsBase base) (entries : List (String × Value))
    (hentries : ∀ entry ∈ entries, Q entry.2) {fs : List Filter}
    (h : r.readMembers collection base entries = .ok fs) : ∀ f ∈ fs, P f := by
  match entries with
  | [] =>
      cases h
      exact List.forall_mem_nil _
  | (name, v) :: entries =>
      obtain ⟨hv, hentries⟩ := List.forall_mem_cons.1 hentries
      rw [readMembers_cons] at h
      split at h
      case isTrue => cases h
      case isFalse hname =>
        obtain ⟨f, hf, h⟩ := Outcome.bind_eq_ok.1 h
        obtain ⟨rest, hrest, h⟩ := Outcome.bind_eq_ok.1 h
        obtain rfl := Outcome.pure_eq_ok.1 h
        refine List.forall_mem_cons.2 ⟨?_, hP.of_readMembers hQ hbase entries hentries hrest⟩
        -- the three connectives come first; any other name adds to the path
        rw [readMember] at hf
        split at hf
        case isTrue =>
          obtain ⟨fs, hfs, rfl⟩ := Outcome.map_eq_ok.1 hf
          exact hP.conjoin fs (hP.of_readList hQ hbase v hv hfs)
        case isFalse hand =>
          split at hf
          case isTrue =>
            obtain ⟨fs, hfs, rfl⟩ := Outcome.map_eq_ok.1 hf
            exact hP.disjoin fs (hP.of_readList hQ hbase v hv hfs)
          case isFalse hor =>
            split at hf
            case isTrue => exact hP.of_readNegation hQ hbase v hv hf
            case isFalse hnot =>
              have hpath : IsPath name := ⟨by simpa using hname, by simpa using hand,
                by simpa using hor, by simpa using hnot⟩
              exact hP.of_readField hQ (hbase.isPath hpath) v hv hf

theorem of_readList (hP : KindInvariant r collection Q P) (hQ : Inherited Q) {base : String}
    (hbase : IsBase base) {connective : String} (v : Value) (hv : Q v) {fs : List Filter}
    (h : r.readList collection base connective v = .ok fs) : ∀ f ∈ fs, P f := by
  cases v with
  | list items => exact hP.of_readItems hQ hbase items (hQ.item items hv) h
  | tuple items => exact hP.of_readItems hQ hbase items (hQ.item items (hQ.list items hv)) h
  | _ => cases h

theorem of_readItems (hP : KindInvariant r collection Q P) (hQ : Inherited Q) {base : String}
    (hbase : IsBase base) {connective : String} (vs : List Value) (hvs : ∀ v ∈ vs, Q v)
    {fs : List Filter} (h : r.readItems collection base connective vs = .ok fs) :
    ∀ f ∈ fs, P f := by
  match vs with
  | [] =>
      cases h
      exact List.forall_mem_nil _
  | v :: vs =>
      obtain ⟨hv, hrest⟩ := List.forall_mem_cons.1 hvs
      cases v with
      | record entries =>
          rw [readItems_cons] at h
          obtain ⟨f, hf, h⟩ := Outcome.bind_eq_ok.1 h
          obtain ⟨fs, hfs, h⟩ := Outcome.bind_eq_ok.1 h
          obtain rfl := Outcome.pure_eq_ok.1 h
          obtain ⟨gs, hgs, rfl⟩ := Outcome.map_eq_ok.1 hf
          have hentries := hQ.entry entries hv
          exact List.forall_mem_cons.2
            ⟨hP.conjoin gs (hP.of_readMembers hQ hbase entries hentries hgs),
              hP.of_readItems hQ hbase vs hrest hfs⟩
      | _ =>
          obtain ⟨_, hrefuse, -⟩ := Outcome.bind_eq_ok.1 h
          cases hrefuse

theorem of_readNegation (hP : KindInvariant r collection Q P) (hQ : Inherited Q) {base : String}
    (hbase : IsBase base) (v : Value) (hv : Q v) {f : Filter}
    (h : r.readNegation collection base v = .ok f) : P f := by
  cases v with
  | record entries =>
      obtain ⟨fs, hfs, rfl⟩ := Outcome.map_eq_ok.1 h
      have hentries := hQ.entry entries hv
      exact hP.negate _ (hP.conjoin fs (hP.of_readMembers hQ hbase entries hentries hfs))
  | _ => cases h

theorem of_readField (hP : KindInvariant r collection Q P) (hQ : Inherited Q) {path : String}
    (hpath : IsPath path) (v : Value) (hv : Q v) {f : Filter}
    (h : r.readField collection path v = .ok f) : P f := by
  cases v with
  | record entries =>
      have hentries := hQ.entry entries hv
      rw [readField] at h
      split at h
      · cases h
      · split at h
        · exact hP.of_readOperators hQ hpath hentries h
        · split at h
          · obtain ⟨_, -, h⟩ := Outcome.bind_eq_ok.1 h
            obtain ⟨fs, hfs, h⟩ := Outcome.bind_eq_ok.1 h
            obtain rfl := Outcome.pure_eq_ok.1 h
            exact hP.conjoin fs (hP.of_readMembers hQ (isBase_dot path) entries hentries hfs)
          · split at h
            · cases h
            · cases h
  | list items => exact hP.of_condition hpath hv h
  | tuple items => exact hP.of_condition hpath (hQ.list items hv) h
  | _ => exact hP.of_condition hpath hv h

end

theorem of_parse (hP : KindInvariant r collection Q P) (hQ : Inherited Q) {v : Value} (hv : Q v)
    {f : Filter} (h : r.parse collection (.raw v) = .ok (some f)) : P f := by
  cases v with
  | record entries =>
      obtain ⟨g, hg, h⟩ := Outcome.bind_eq_ok.1 h
      obtain rfl := Option.some.inj (Outcome.pure_eq_ok.1 h)
      obtain ⟨fs, hfs, hg⟩ := Outcome.bind_eq_ok.1 hg
      obtain rfl := Outcome.pure_eq_ok.1 hg
      exact hP.conjoin fs (hP.of_readMembers hQ isBase_empty entries (hQ.entry entries hv) hfs)
  | _ => cases h

/-- Folding brings in no conditions, so what is known of those that have been checked is known of
all conditions of a filter. -/
theorem forall_conditions {R : Condition → Prop}
    (hR : ∀ c : Condition, IsPath c.field → r.checkCondition collection c = .ok () → Q c.value →
      R c) :
    KindInvariant r collection Q fun f => ∀ c ∈ f.conditions, R c where
  leaf c hpath hcheck hvalue := by simpa [Filter.conditions] using hR c hpath hcheck hvalue
  conjoin fs hfs c hc := by
    obtain ⟨f, hf, hcf⟩ := Filter.mem_conditions_conjoin hc
    exact hfs f hf c hcf
  disjoin fs hfs c hc := by
    obtain ⟨f, hf, hcf⟩ := Filter.mem_conditions_disjoin hc
    exact hfs f hf c hcf
  negate f hf := by rwa [Filter.conditions_negate]

end KindInvariant

/-- Checked conditions have the property, and folding keeps it. -/
structure Invariant (r : FilterReader) (collection : String) (P : Filter → Prop) : Prop where
  /-- A condition that has been checked has it. -/
  leaf : ∀ c : Condition, IsPath c.field → r.checkCondition collection c = .ok () → P (.leaf c)
  /-- Conjunctions keep it. -/
  conjoin : ∀ fs, (∀ f ∈ fs, P f) → P (.conjoin fs)
  /-- Disjunctions keep it. -/
  disjoin : ∀ fs, (∀ f ∈ fs, P f) → P (.disjoin fs)
  /-- Negations keep it. -/
  negate : ∀ f, P f → P (.negate f)

/-- All values together are a kind. -/
theorem inherited_true : Inherited fun _ => True :=
  ⟨fun _ => trivial, fun _ _ _ _ => trivial, fun _ _ _ _ => trivial, fun _ _ => trivial⟩

namespace Invariant

theorem kindInvariant (hP : Invariant r collection P) :
    KindInvariant r collection (fun _ => True) P :=
  ⟨fun c hpath hcheck _ => hP.leaf c hpath hcheck, hP.conjoin, hP.disjoin, hP.negate⟩

/-- **What checked conditions have and folding keeps, every filter has that is read.** -/
theorem of_readMembers (hP : Invariant r collection P) {base : String} (hbase : IsBase base)
    (entries : List (String × Value)) {fs : List Filter}
    (h : r.readMembers collection base entries = .ok fs) : ∀ f ∈ fs, P f :=
  hP.kindInvariant.of_readMembers inherited_true hbase entries (fun _ _ => trivial) h

theorem of_parse (hP : Invariant r collection P) {v : Value} {f : Filter}
    (h : r.parse collection (.raw v) = .ok (some f)) : P f :=
  hP.kindInvariant.of_parse inherited_true trivial h

/-- What is known of the conditions that have been checked is known of all conditions of a
filter. -/
theorem forall_conditions {Q : Condition → Prop}
    (hQ : ∀ c : Condition, IsPath c.field → r.checkCondition collection c = .ok () → Q c) :
    Invariant r collection fun f => ∀ c ∈ f.conditions, Q c :=
  have hkind : KindInvariant r collection (fun _ => True) fun f => ∀ c ∈ f.conditions, Q c :=
    .forall_conditions fun c hpath hcheck _ => hQ c hpath hcheck
  ⟨fun c hpath hcheck => hkind.leaf c hpath hcheck trivial, hkind.conjoin, hkind.disjoin,
    hkind.negate⟩

end Invariant

/-! ## Trees -/

theorem validateAll_eq_ok {fs : List Filter} :
    r.validateAll collection fs = .ok () ↔ ∀ f ∈ fs, r.validate collection f = .ok () := by
  induction fs with
  | nil => exact iff_of_true rfl (List.forall_mem_nil _)
  | cons f fs ih =>
      rw [validateAll, Outcome.bind_eq_ok, List.forall_mem_cons, ih]
      exact ⟨fun ⟨_, hf, hfs⟩ => ⟨hf, hfs⟩, fun ⟨hf, hfs⟩ => ⟨(), hf, hfs⟩⟩

/-- A tree is accepted iff each of its conditions is. -/
theorem validate_eq_ok {f : Filter} : r.validate collection f = .ok () ↔
    ∀ c ∈ f.conditions, r.checkCondition collection c = .ok () := by
  have hall (fs : List Filter) (ih : ∀ f ∈ fs, r.validate collection f = .ok () ↔
      ∀ c ∈ f.conditions, r.checkCondition collection c = .ok ()) :
      r.validateAll collection fs = .ok () ↔
        ∀ c ∈ Filter.conditionsOf fs, r.checkCondition collection c = .ok () := by
    rw [validateAll_eq_ok, forall₂_congr ih, Filter.conditionsOf_eq_flatMap,
      List.forall_mem_flatMap]
  induction f with
  | leaf c => simp [validate, Filter.conditions]
  | conj fs ih => rw [validate, hall fs ih, Filter.conditions]
  | disj fs ih => rw [validate, hall fs ih, Filter.conditions]
  | neg f ih =>
      rw [validate, Filter.conditions]
      exact ih
  | all | none => exact iff_of_true rfl (List.forall_mem_nil _)

/-- The conditions of whatever is read or checked have been checked. -/
theorem checkCondition_of_parse {raw : RawFilter} {f : Filter}
    (h : r.parse collection raw = .ok (some f)) :
    ∀ c ∈ f.conditions, r.checkCondition collection c = .ok () := by
  cases raw with
  | tree g =>
      obtain ⟨_, hg, h⟩ := Outcome.bind_eq_ok.1 h
      obtain rfl := Option.some.inj (Outcome.pure_eq_ok.1 h)
      exact validate_eq_ok.1 hg
  | raw v => exact (Invariant.forall_conditions fun _ _ hcheck => hcheck).of_parse h

/-! ## Conditions on related rows -/

/-- The filters under names of relations are read of the entries of these names, each against the
relation's target. -/
theorem exists_of_mem_parseRelations {entries : Record} {related : Named Filter}
    (h : r.parseRelations collection entries = .ok related) {name : String} {f : Filter}
    (hf : (name, f) ∈ related) : ∃ v relation, (name, v) ∈ entries ∧
      r.catalog.relation? collection name = some relation ∧
        r.parse relation.target (.raw v) = .ok (some f) := by
  induction entries generalizing related with
  | nil =>
      cases h
      cases hf
  | cons entry entries ih =>
      obtain ⟨other, w⟩ := entry
      -- what was read of the other entries stands behind this one
      have hbehind {rest : Named Filter} (hrest : r.parseRelations collection entries = .ok rest)
          (hf : (name, f) ∈ rest) : ∃ v relation, (name, v) ∈ (other, w) :: entries ∧
            r.catalog.relation? collection name = some relation ∧
              r.parse relation.target (.raw v) = .ok (some f) := by
        obtain ⟨v, relation, hv, hread⟩ := ih hrest hf
        exact ⟨v, relation, List.mem_cons_of_mem _ hv, hread⟩
      rw [parseRelations] at h
      split at h
      case h_1 => exact absurd h (Outcome.refuse_ne_ok _ _)
      case h_2 relation hrelation =>
        obtain ⟨read, hread, h⟩ := Outcome.bind_eq_ok.1 h
        cases read with
        | none => exact hbehind h hf
        | some g =>
            obtain ⟨rest, hrest, h⟩ := Outcome.bind_eq_ok.1 h
            obtain rfl := Outcome.pure_eq_ok.1 h
            rcases List.mem_cons.1 hf with heq | hf
            · cases heq
              exact ⟨w, relation, List.mem_cons_self, hrelation, hread⟩
            · exact hbehind hrest hf

/-- The conditions on related rows are read of a record. -/
theorem exists_of_mem_parseRelConditions {v : Value} {related : Named Filter}
    (h : r.parseRelConditions collection v = .ok related) {name : String} {f : Filter}
    (hf : (name, f) ∈ related) : ∃ entries w relation, v = .record entries ∧ (name, w) ∈ entries ∧
      r.catalog.relation? collection name = some relation ∧
        r.parse relation.target (.raw w) = .ok (some f) := by
  unfold parseRelConditions at h
  split at h
  case isTrue =>
    cases v with
    | record entries =>
        obtain ⟨w, relation, hw, hread⟩ := exists_of_mem_parseRelations h hf
        exact ⟨entries, w, relation, rfl, hw, hread⟩
    | _ => exact absurd h (Outcome.refuse_ne_ok _ _)
  case isFalse =>
    cases h
    cases hf

end Warden.FilterReader
