import Warden.Permission.Snapshot
import Warden.Proofs.Filter.Pruning
import Warden.Proofs.Filter.Reading
import Warden.Proofs.Permission.Keys
import Warden.Proofs.Query.Confinement

/-! # Conditions of plans are valid

A condition is **`Condition.Valid`** if its path leads to a field, its cast is known, its operator
applies to the family of the cast or field, and its value has the operator's shape. Reading a filter
checks all of this but the values that hold variables, and such a value is checked when its
variables are replaced. In between, conditions are dropped by pruning, merged with those of the
grant and folded, and none of these makes a condition.

* **`Condition.Checked`** is what reading ensures and what pruning, merging and folding keep, and
  **`Resolver.valid_of_mem_resolveFilter`** turns it into validity.
* **`Grant.ReadFrom`** says that the conditions of a grant were read, as those of every grant of a
  snapshot are (`Snapshot.readFrom_grant`).
* **`plan_conditions_valid`** is the main statement: no other condition reaches a plan. -/

namespace Warden

variable {k : Catalog} {collection : String}

/-! ## Conditions -/

/-- The family that a condition on a field of the type compares in: that of its cast or of the type,
if the cast is known. -/
def Condition.family? (c : Condition) (type : FieldType) : Option TypeFamily :=
  match c.cast with
  | none => some type.family
  | some cast => castFamily? cast

/-- The condition is on a field of the collection, or of one behind its relations, and the operator
applies to what the field holds or is cast to. -/
structure Condition.Applies (c : Condition) (k : Catalog) (collection : String) : Prop where
  /-- The cast is absent or known. -/
  cast : ∀ cast, c.cast = some cast → (castFamily? cast).isSome = true
  /-- The path leads to a field, and the operator applies. -/
  operator : ∃ type family, k.fieldType collection c.field = .ok type ∧
    c.family? type = some family ∧ c.operator.appliesTo family = true

/-- A condition that applies, and whose value is as the operator demands unless it holds a variable.
-/
structure Condition.Checked (c : Condition) (k : Catalog) (collection : String) : Prop
    extends c.Applies k collection where
  /-- A value without variables has the operator's shape. -/
  value : c.value.hasVariable = false → c.operator.checkValue c.value c.field = .ok ()

/-- A condition that applies, and whose value is as the operator demands. -/
structure Condition.Valid (c : Condition) (k : Catalog) (collection : String) : Prop
    extends c.Applies k collection where
  /-- The value has the operator's shape. -/
  value : c.operator.checkValue c.value c.field = .ok ()

/-- A value that passes the check has the shape of the operator. -/
theorem Operator.accepts_of_checkValue {op : Operator} {v : Value} {field : String}
    (h : op.checkValue v field = .ok ()) : op.shape.accepts v = .ok true := by
  obtain ⟨b, hb, h⟩ := Outcome.bind_eq_ok.1 h
  rw [Outcome.lift_eq_ok.1 hb]
  cases b with
  | true => rfl
  | false => exact absurd h (Outcome.refuse_ne_ok _ _)

/-- A check that passes has shown all but the shape of a value with variables. -/
theorem FilterReader.checked_of_checkCondition {reader : FilterReader} {c : Condition}
    (h : reader.checkCondition collection c = .ok ()) : c.Checked reader.catalog collection := by
  simp only [checkCondition, family, Outcome.bind_eq_ok] at h
  obtain ⟨_, -, family, ⟨type, htype, hfamily⟩, _, hoperator, hvalue⟩ := h
  have hknown : c.family? type = some family := by
    rw [Condition.family?]
    cases hcast : c.cast with
    | none =>
        rw [hcast] at hfamily
        exact congrArg some (Outcome.pure_eq_ok.1 hfamily)
    | some cast =>
        simp only [hcast] at hfamily
        split at hfamily
        case h_1 known hk => exact hk.trans (congrArg some (Outcome.pure_eq_ok.1 hfamily))
        case h_2 => exact absurd hfamily (Outcome.refuse_ne_ok _ _)
  refine ⟨⟨?_, type, family, htype, hknown, ?_⟩, ?_⟩
  · intro cast hcast
    rw [Condition.family?, hcast] at hknown
    exact Option.isSome_of_eq_some hknown
  · rw [Operator.checkApplies] at hoperator
    split at hoperator
    case isTrue happlies => exact happlies
    case isFalse => exact absurd hoperator (Outcome.refuse_ne_ok _ _)
  · intro hno
    rwa [hno] at hvalue

/-- What a condition becomes when its variables are replaced is valid: a new value is checked, and
any other value was. -/
theorem Resolver.valid_of_mem_resolveCondition {resolver : Resolver} {b c : Condition} {f : Filter}
    (hb : b.Checked k collection) (h : resolver.resolveCondition b = .ok f)
    (hc : c ∈ f.conditions) : c.Valid k collection := by
  rw [resolveCondition] at h
  split at h
  case isTrue =>
    simp only [Outcome.bind_eq_ok, Outcome.pure_eq_ok] at h
    obtain ⟨v, -, _, hvalue, rfl⟩ := h
    obtain rfl := List.mem_singleton.1 hc
    exact ⟨⟨hb.cast, hb.operator⟩, hvalue⟩
  case isFalse hno =>
    cases h
    obtain rfl := List.mem_singleton.1 hc
    exact ⟨hb.toApplies, hb.value (Bool.eq_false_iff.2 hno)⟩

/-! ## Filters -/

/-- All conditions of the filter have been checked. -/
def Filter.Checked (f : Filter) (k : Catalog) (collection : String) : Prop :=
  ∀ c ∈ f.conditions, c.Checked k collection

namespace Filter.Checked

variable {f g : Filter}

theorem all : Filter.all.Checked k collection :=
  List.forall_mem_nil _

theorem none : Filter.none.Checked k collection :=
  List.forall_mem_nil _

/-- Pruning makes no condition. -/
theorem prune (h : f.Checked k collection) (a : Allowlist) :
    (f.prune a).Checked k collection :=
  fun c hc => h c ((sublist_conditions_prune a f).subset hc)

theorem conjoin {fs : List Filter} (h : ∀ f ∈ fs, f.Checked k collection) :
    (Filter.conjoin fs).Checked k collection := by
  intro c hc
  obtain ⟨f, hf, hcf⟩ := mem_conditions_conjoin hc
  exact h f hf c hcf

/-- Merging makes no condition, whichever sides there are. -/
theorem merge {caller security : Option Filter} (hcaller : ∀ f ∈ caller, f.Checked k collection)
    (hsecurity : ∀ f ∈ security, f.Checked k collection) (unrestricted : Bool) :
    (mergeFilters caller security unrestricted).Checked k collection := by
  match caller, security, unrestricted with
  | some f, _, true => exact hcaller f rfl
  | Option.none, _, true => exact all
  | some f, Option.none, false => exact hcaller f rfl
  | Option.none, Option.none, false => exact all
  | Option.none, some g, false => exact hsecurity g rfl
  | some f, some g, false =>
      refine conjoin (List.forall_mem_cons.2 ⟨hcaller f rfl, List.forall_mem_cons.2 ⟨?_, ?_⟩⟩)
      · exact hsecurity g rfl
      · exact List.forall_mem_nil _

end Filter.Checked

/-- Whatever is read has been checked. -/
theorem FilterReader.checked_of_parse {reader : FilterReader} {raw : RawFilter} {f : Filter}
    (h : reader.parse collection raw = .ok (some f)) : f.Checked reader.catalog collection :=
  fun c hc => checked_of_checkCondition (checkCondition_of_parse h c hc)

/-- Once its variables are replaced, all conditions of a checked filter are valid. -/
theorem Resolver.valid_of_mem_resolveFilter {resolver : Resolver} {f g : Filter}
    (hf : f.Checked k collection) (h : resolver.resolveFilter f = .ok g) {c : Condition}
    (hc : c ∈ g.conditions) : c.Valid k collection := by
  obtain ⟨b, hb, e, he, hce⟩ := Filter.mem_conditions_of_mapConditions h hc
  exact valid_of_mem_resolveCondition (hf b hb) he hce

/-! ## Conditions on related rows -/

/-- The name is that of a relation, and all conditions of the filter have been checked against the
relation's target. -/
def Filter.CheckedOn (f : Filter) (k : Catalog) (collection name : String) : Prop :=
  ∃ relation, k.relation? collection name = some relation ∧ f.Checked k relation.target

/-- A collection that is found is the one of its name. -/
theorem Catalog.find?_of_find {c : Collection} (h : k.find collection = .ok c) :
    k.find? collection = some c := by
  rw [find] at h
  split at h
  · next hc => rw [hc, Except.ok.inj h]
  · exact absurd h (Outcome.refuse_ne_ok _ _)

theorem Catalog.name_of_find {c : Collection} (h : k.find collection = .ok c) :
    c.name = collection := by
  simpa using List.find?_some (find?_of_find h)

/-- The relations of a collection that is found are those under its name. -/
theorem Catalog.relation?_of_find {c : Collection} (h : k.find collection = .ok c) (name : String) :
    k.relation? c.name name = c.relation? name := by
  rw [relation?, name_of_find h, find?_of_find h]
  rfl

/-- What is left of the caller's conditions on related rows has been checked. -/
theorem Request.checkedOn_of_mem_planRelConditions {reader : FilterReader} {c : Collection}
    {a : Allowlist} (hc : reader.catalog.find collection = .ok c) {raw : Named RawFilter}
    {related : Named Filter} (h : planRelConditions reader c a raw = .ok related) {name : String}
    {f : Filter} (hf : (name, f) ∈ related) : f.CheckedOn reader.catalog c.name name := by
  induction raw generalizing related with
  | nil =>
      cases h
      cases hf
  | cons entry raw ih =>
      obtain ⟨other, own⟩ := entry
      rw [planRelConditions] at h
      split at h
      case h_1 => exact absurd h (Outcome.refuse_ne_ok _ _)
      case h_2 relation hrelation =>
        obtain ⟨read, hread, h⟩ := Outcome.bind_eq_ok.1 h
        cases read with
        | none => exact ih h hf
        | some g =>
            obtain ⟨rest, hrest, h⟩ := Outcome.bind_eq_ok.1 h
            obtain rfl := Outcome.pure_eq_ok.1 h
            rcases List.mem_cons.1 hf with hf | hf
            · cases hf
              refine ⟨relation, (Catalog.relation?_of_find hc _).trans hrelation, ?_⟩
              split
              · exact (FilterReader.checked_of_parse hread).prune _
              · exact Filter.Checked.none
            · exact ih hrest hf

/-- Merged conditions on related rows have what both sides have and conjunctions keep. -/
theorem of_mem_mergeRelConditions {P : String → Filter → Prop}
    (hconjoin : ∀ name f g, P name f → P name g → P name (Filter.conjoin [f, g]))
    {caller security : Named Filter} (hcaller : ∀ name f, (name, f) ∈ caller → P name f)
    (hsecurity : ∀ name f, (name, f) ∈ security → P name f) {unrestricted : Bool} {name : String}
    {f : Filter} (hf : (name, f) ∈ mergeRelConditions caller security unrestricted) : P name f := by
  cases unrestricted with
  | true => exact hcaller name f hf
  | false =>
      -- the grant's conditions are put one by one to those of the caller
      rw [mergeRelConditions, if_neg Bool.false_ne_true] at hf
      induction security generalizing caller with
      | nil => exact hcaller name f hf
      | cons entry security ih =>
          obtain ⟨other, rule⟩ := entry
          refine ih ?_ (fun name f hf => hsecurity name f (List.mem_cons_of_mem _ hf)) hf
          intro name f hf
          rcases Named.mem_insert hf with heq | hf
          · obtain ⟨rfl, rfl⟩ := Prod.mk.inj heq
            have hrule := hsecurity name rule List.mem_cons_self
            cases hown : caller.find? name with
            | none => exact hrule
            | some own => exact hconjoin _ _ _ (hcaller _ _ (Named.mem_of_find? hown)) hrule
          · exact hcaller name f hf

/-- Merged conditions on related rows have been checked if both sides have. -/
theorem Filter.checkedOn_of_mem_mergeRelConditions {caller security : Named Filter}
    (hcaller : ∀ name f, (name, f) ∈ caller → f.CheckedOn k collection name)
    (hsecurity : ∀ name f, (name, f) ∈ security → f.CheckedOn k collection name)
    {unrestricted : Bool} {name : String} {f : Filter}
    (hf : (name, f) ∈ mergeRelConditions caller security unrestricted) :
    f.CheckedOn k collection name := by
  refine of_mem_mergeRelConditions ?_ hcaller hsecurity hf
  -- a name leads to one relation, so both sides were checked against the same target
  rintro name f g ⟨relation, hrelation, hf⟩ ⟨relation', hrelation', hg⟩
  obtain rfl := Option.some.inj (hrelation.symm.trans hrelation')
  refine ⟨relation, hrelation, Filter.Checked.conjoin ?_⟩
  exact List.forall_mem_cons.2 ⟨hf, List.forall_mem_cons.2 ⟨hg, List.forall_mem_nil _⟩⟩

/-! ## Grants -/

/-- The filter is one that was read, or checked as a tree, against the catalog; the limit on paths
may have been any. -/
def Filter.ReadFrom (f : Filter) (k : Catalog) (collection : String) : Prop :=
  ∃ (maxDepth : Int) (raw : RawFilter),
    (⟨k, maxDepth⟩ : FilterReader).parse collection raw = .ok (some f)

/-- The conditions of a grant were read against the catalog: that on rows against the collection,
and those on related rows against the targets of their relations. -/
structure Grant.ReadFrom (grant : Grant) (k : Catalog) (collection : String) : Prop where
  /-- The condition on rows. -/
  condition : ∀ f, grant.condition = some f → f.ReadFrom k collection
  /-- The conditions on related rows. -/
  relConditions : ∀ name f, (name, f) ∈ grant.relConditions →
    ∀ relation, k.relation? collection name = some relation → f.ReadFrom k relation.target

theorem Filter.ReadFrom.checked {f : Filter} (h : f.ReadFrom k collection) :
    f.Checked k collection := by
  obtain ⟨maxDepth, raw, h⟩ := h
  exact FilterReader.checked_of_parse h

/-- The conditions on related rows are read against the targets of their relations. -/
theorem FilterReader.readFrom_of_parseRelConditions {reader : FilterReader} {v : Value}
    {related : Named Filter} (h : reader.parseRelConditions collection v = .ok related)
    {name : String} {f : Filter} (hf : (name, f) ∈ related) {relation : Relation}
    (hrelation : reader.catalog.relation? collection name = some relation) :
    f.ReadFrom reader.catalog relation.target := by
  obtain ⟨_, w, relation', -, -, hrelation', hread⟩ := exists_of_mem_parseRelConditions h hf
  obtain rfl := Option.some.inj (hrelation'.symm.trans hrelation)
  exact ⟨reader.maxDepth, .raw w, hread⟩

/-- The conditions that a rule grants are read. -/
theorem Permission.readFrom_grant {p : Permission} {reader : FilterReader} {grant : Grant}
    (h : p.grant reader = .ok grant) : grant.ReadFrom reader.catalog p.collection := by
  simp only [Permission.grant, Outcome.bind_eq_ok, Outcome.pure_eq_ok] at h
  obtain ⟨_, -, condition, hcondition, related, hrelated, _, -, rfl⟩ := h
  constructor
  case condition =>
    rintro f rfl
    exact ⟨reader.maxDepth, _, hcondition⟩
  case relConditions =>
    exact fun name f hf relation => FilterReader.readFrom_of_parseRelConditions hrelated hf

/-- The conditions of every grant of a snapshot are read. -/
theorem Snapshot.readFrom_grant {s : Snapshot} {reader : FilterReader} {caller : Caller}
    {action : Action} {grant : Grant}
    (h : s.grant reader caller collection action = .ok grant) :
    grant.ReadFrom reader.catalog collection := by
  -- nothing is granted, by a condition that no row matches
  have hdeny : Grant.deny.ReadFrom reader.catalog collection := by
    constructor
    · rintro f ⟨⟩
      exact ⟨reader.maxDepth, .tree .none, rfl⟩
    · exact fun name f hf => nomatch hf
  rw [Snapshot.grant] at h
  split at h
  · cases h
    constructor <;> simp [Grant.admin]
  · split at h
    · cases h
      exact hdeny
    · split at h
      · cases h
        exact hdeny
      · next p hp =>
          have hfor := List.find?_some hp
          obtain ⟨-, rfl, -⟩ := Permission.isFor_iff.1 hfor
          exact p.readFrom_grant h

/-! ## Plans -/

/-- All conditions of a plan are valid: those on rows for its collection, and those on related rows,
which are under names of relations, for the targets of these. -/
structure Plan.Valid (p : Plan) (k : Catalog) : Prop where
  /-- The conditions on rows. -/
  filter : ∀ c ∈ p.filter.conditions, c.Valid k p.collection
  /-- The conditions on related rows. -/
  relConditions : ∀ name f, (name, f) ∈ p.relConditions →
    ∃ relation, k.relation? p.collection name = some relation ∧
      ∀ c ∈ f.conditions, c.Valid k relation.target

namespace Plan.Made

variable {p : Plan} {r : Request} {reader : FilterReader} {c : Collection} {grant : Grant}
  {resolver : Resolver} {f : Option Filter} {related : Named Filter}

/-- The conditions on rows are valid. -/
theorem valid_of_mem_filter (hp : p.Made r reader c grant resolver f related)
    (hgrant : grant.ReadFrom reader.catalog c.name) {b : Condition}
    (hb : b ∈ p.filter.conditions) : b.Valid reader.catalog c.name := by
  refine resolver.valid_of_mem_resolveFilter (Filter.Checked.merge ?_ ?_ _) hp.filter hb
  · rintro g hg
    obtain ⟨own, rfl, rfl⟩ := Option.map_eq_some_iff.1 hg
    exact (FilterReader.checked_of_parse hp.own).prune _
  · exact fun g hg => (hgrant.condition g hg).checked

/-- The grant's conditions on related rows are on relations of the collection. -/
theorem checkedOn_of_mem_grant (hp : p.Made r reader c grant resolver f related)
    (hc : reader.catalog.find r.collection = .ok c)
    (hgrant : grant.ReadFrom reader.catalog c.name) {name : String} {g : Filter}
    (hg : (name, g) ∈ grant.relConditions) : g.CheckedOn reader.catalog c.name name := by
  have hknown : c.hasRelation name = true := Request.checkRelations_eq_ok.1 hp.relations _ hg
  obtain ⟨relation, hrelation⟩ := Option.isSome_iff_exists.1 hknown
  have hnamed := (Catalog.relation?_of_find hc name).trans hrelation
  exact ⟨relation, hnamed, (hgrant.relConditions name g hg relation hnamed).checked⟩

/-- The conditions on related rows are valid. -/
theorem valid_of_mem_relConditions (hp : p.Made r reader c grant resolver f related)
    (hc : reader.catalog.find r.collection = .ok c)
    (hgrant : grant.ReadFrom reader.catalog c.name) {name : String} {g : Filter}
    (hg : (name, g) ∈ p.relConditions) :
    ∃ relation, reader.catalog.relation? c.name name = some relation ∧
      ∀ b ∈ g.conditions, b.Valid reader.catalog relation.target := by
  obtain ⟨e, he, hge⟩ := (Request.alike_resolveAll hp.relConditions).exists_mem hg
  obtain ⟨relation, hrelation, hchecked⟩ := Filter.checkedOn_of_mem_mergeRelConditions
    (fun _ _ h => Request.checkedOn_of_mem_planRelConditions hc hp.ownRelated h)
    (fun _ _ h => hp.checkedOn_of_mem_grant hc hgrant h) he
  exact ⟨relation, hrelation, fun b hb => resolver.valid_of_mem_resolveFilter hchecked hge hb⟩

end Plan.Made

/-- **Every condition of a plan is valid**, if the conditions of the grant were read: whatever the
request and the variables, its path leads to a field, its cast is absent or known, its operator
applies, and its value, with variables replaced, has the operator's shape. -/
theorem plan_conditions_valid {r : Request} {reader : FilterReader} {grant : Grant}
    {resolver : Resolver} {p : Plan} (hgrant : grant.ReadFrom reader.catalog r.collection)
    (h : r.plan reader grant resolver = .ok p) : p.Valid reader.catalog := by
  cases hd : grant.denied with
  | true =>
      -- the empty plan has no conditions
      obtain ⟨c, -, rfl⟩ := Request.plan_of_denied hd h
      constructor <;> simp [Request.emptyPlan, Filter.conditions]
  | false =>
      obtain ⟨c, f, related, hc, hp⟩ := Request.made_of_plan hd h
      rw [← Catalog.name_of_find hc] at hgrant
      constructor
      case filter =>
        rw [hp.collection]
        exact fun b hb => hp.valid_of_mem_filter hgrant hb
      case relConditions =>
        rw [hp.collection]
        exact fun name g hg => hp.valid_of_mem_relConditions hc hgrant hg

/-- A rule by which editors read their own posts, if one of two authors wrote them. -/
def Sample.ownAda : Permission :=
  { rule .read (.record [("author_id", .text "$CURRENT_USER")]) (.record []) with
    relConditions := .record [("author", .record [("name", .list [.text "Ada", .text "Eve"])])] }

/-- A request for posts by their titles and for authors by their keys. -/
def Sample.titled : Request :=
  { Request.all "posts" 10 with
    filter := .raw (.record [("title", .record [("startsWith", .text "$CURRENT_ROLE.name")])])
    relConditions := [("author", .raw (.record [("id", .text "$CURRENT_USER")]))] }

/-- A request with variables under a rule with variables: both are merged, and all conditions of the
plan are valid. -/
theorem plan_conditions_valid_titled :
    ∃ grant p, (Sample.under Sample.ownAda).snapshot.grant Sample.reader Sample.editor
      "posts" .read = .ok grant ∧
      Sample.titled.plan Sample.reader grant Sample.resolver = .ok p ∧
      p.filter.conditions = [⟨"title", .startsWith, .text "editor", none⟩,
        ⟨"author_id", .eq, .text "user-1", none⟩] ∧
      p.Valid Sample.reader.catalog := by
  obtain ⟨grant, hgrant, p, hp, hconditions⟩ : ∃ grant,
      (Sample.under Sample.ownAda).snapshot.grant Sample.reader Sample.editor "posts" .read =
        .ok grant ∧
      ∃ p, Sample.titled.plan Sample.reader grant Sample.resolver = .ok p ∧
        p.filter.conditions = [⟨"title", .startsWith, .text "editor", none⟩,
          ⟨"author_id", .eq, .text "user-1", none⟩] :=
    ⟨_, rfl, _, rfl, rfl⟩
  exact ⟨grant, p, hgrant, hp, hconditions,
    plan_conditions_valid (Snapshot.readFrom_grant hgrant) hp⟩

end Warden
