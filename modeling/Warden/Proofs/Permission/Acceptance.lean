import Warden.Proofs.Access.Pattern
import Warden.Proofs.Access.Replacement
import Warden.Proofs.Item.Payload
import Warden.Proofs.Query.Depth
import Warden.Proofs.Query.Validity
import Warden.Query.Parameters

/-! # Accepted rules work

A rule is checked once, when it is stored, and put to use later: what it grants is made of it, its
conditions join those of requests, and its values those of payloads. Each of these steps makes
checks of its own. Where nothing in the rule waits for the caller, none of them turns down what the
first check accepted (**`accepted_rule_works`**):

* conditions are read as they were read before, and compare with parts of what the rule says
  (`FilterReader.isSettled_of_parse`), so replacing variables leaves nothing to be checked again;
* relations and fields are looked up in the same collection (`Permission.Accepted`).

What a plan still depends on is said for the request without parameters
(**`Request.exists_plan_all_iff`**): on the collection, which may have changed since, and on
settings that allow paths and rows at all. -/

namespace Warden

/-! ## Conditions in which nothing is replaced -/

/-- No condition of the filter compares with what is known only when a request is made. -/
def Filter.IsSettled (f : Filter) : Prop :=
  ∀ c ∈ f.conditions, c.value.hasVariable = false

theorem Filter.IsSettled.conjoin {fs : List Filter} (h : ∀ f ∈ fs, f.IsSettled) :
    (Filter.conjoin fs).IsSettled := by
  intro c hc
  obtain ⟨f, hf, hcf⟩ := mem_conditions_conjoin hc
  exact h f hf c hcf

/-- For a caller without a filter the rule's condition is all there is. -/
theorem Filter.IsSettled.merge {rule : Option Filter} (h : ∀ f, rule = some f → f.IsSettled)
    (unrestricted : Bool) : (mergeFilters Option.none rule unrestricted).IsSettled := by
  cases unrestricted with
  | true => exact List.forall_mem_nil _
  | false =>
      cases rule with
      | none => exact List.forall_mem_nil _
      | some f => exact h f rfl

namespace FilterReader

variable {r : FilterReader} {collection : String} {v : Value}

/-- The parts of a value without tokens have none. -/
theorem inherited_hasVariable : Inherited fun v => v.hasVariable = false where
  bool _ := rfl
  entry entries h entry hentry := by
    rw [Value.hasVariable, Value.anyEntryVariable_eq_any, List.any_eq_false] at h
    exact Bool.eq_false_iff.2 (h entry.2 (List.mem_map_of_mem hentry))
  item items h v hv := by
    rw [Value.hasVariable, Value.anyVariable_eq_any, List.any_eq_false] at h
    exact Bool.eq_false_iff.2 (h v hv)
  list items h := by simpa only [Value.hasVariable] using h

/-- What is read of a value without tokens compares with none. -/
theorem isSettled_of_parse {f : Filter} (h : r.parse collection (.raw v) = .ok (some f))
    (hv : v.hasVariable = false) : f.IsSettled :=
  have hkind : KindInvariant r collection (fun v => v.hasVariable = false) fun f =>
      ∀ c ∈ f.conditions, c.value.hasVariable = false :=
    .forall_conditions fun _ _ _ hvalue => hvalue
  hkind.of_parse inherited_hasVariable hv h

/-- So do the conditions on related rows, which are on relations of the collection. -/
theorem isSettled_of_parseRelConditions {related : Named Filter}
    (h : r.parseRelConditions collection v = .ok related) (hv : v.hasVariable = false) :
    ∀ entry ∈ related,
      (r.catalog.relation? collection entry.1).isSome = true ∧ entry.2.IsSettled := by
  rintro ⟨name, f⟩ hf
  obtain ⟨entries, w, relation, rfl, hw, hrelation, hread⟩ := exists_of_mem_parseRelConditions h hf
  have hsettled : w.hasVariable = false := inherited_hasVariable.entry entries hv (name, w) hw
  exact ⟨Option.isSome_iff_exists.2 ⟨relation, hrelation⟩, isSettled_of_parse hread hsettled⟩

end FilterReader

namespace Resolver

variable {r : Resolver}

/-- Nothing of a settled filter is checked again, whoever asks. -/
theorem exists_resolveFilter {f : Filter} (h : f.IsSettled) : ∃ g, r.resolveFilter f = .ok g := by
  have hkept : r.resolveFilter f = f.mapConditions fun c => .ok (.leaf c) := by
    refine Filter.mapConditions_congr fun c hc => ?_
    rw [resolveCondition, h c hc]
    rfl
  rw [hkept]
  exact Filter.exists_mapConditions (fun c => ⟨.leaf c, rfl⟩) f

theorem exists_resolveAll {fs : Named Filter} (h : ∀ entry ∈ fs, entry.2.IsSettled) :
    ∃ gs, Request.resolveAll r fs = .ok gs := by
  induction fs with
  | nil => exact ⟨[], rfl⟩
  | cons entry fs ih =>
      obtain ⟨name, f⟩ := entry
      obtain ⟨hf, hfs⟩ := List.forall_mem_cons.1 h
      obtain ⟨g, hg⟩ := exists_resolveFilter hf
      obtain ⟨gs, hgs⟩ := ih hfs
      refine ⟨(name, g) :: gs, ?_⟩
      rw [Request.resolveAll, hg, hgs]
      rfl

end Resolver

/-! ## The request without parameters -/

/-- All direct fields can be selected if paths may be read at all. -/
theorem Selection.exists_expand_none (k : Catalog) (c : Collection) {maxDepth : Int}
    (h : 0 ≤ maxDepth) : ∃ s, expand k maxDepth c none = .ok s := by
  have hdepth : checkDepth maxDepth [wildcard] = .ok () := by
    rw [checkDepth, if_neg]
    simpa using h
  have hpaths : ∀ path ∈ pathsOf none, checkDepth maxDepth path = .ok () :=
    fun path hpath => List.mem_singleton.1 hpath ▸ hdepth
  exact ⟨_, Outcome.bind_eq_ok.2 ⟨(), Outcome.forIn_eq_ok.2 hpaths, rfl⟩⟩

namespace Request

theorem ofParameters_nil (collection : String) (limit : Int) :
    ofParameters collection [] limit = .ok (Request.all collection limit) := rfl

/-- The first page can be asked for unless the number of rows is below that for all. -/
theorem exists_paginate_all_iff (collection : String) (limit : Int) :
    (∃ page, (Request.all collection limit).paginate = .ok page) ↔ -1 ≤ limit := by
  by_cases hlimit : limit < -1
  · have hrefused : (Request.all collection limit).paginate = refuse (.invalidLimit limit) :=
      if_pos hlimit
    rw [hrefused]
    exact iff_of_false (fun ⟨_, h⟩ => Outcome.refuse_ne_ok _ _ h) (Int.not_le.2 hlimit)
  · have hpage : (Request.all collection limit).paginate =
        if limit = -1 then .ok (limit, 0) else .ok (limit, (1 - 1) * limit) := if_neg hlimit
    rw [hpage]
    refine iff_of_true ?_ (Int.not_lt.1 hlimit)
    split <;> exact ⟨_, rfl⟩

/-- **A plan can be made of the request without parameters** under a grant whose conditions are
settled iff the collection is there with the relations that the grant has conditions on, paths may
be read at all, and the number of rows is one that can be asked for. -/
theorem exists_plan_all_iff (reader : FilterReader) (collection : String) (limit : Int)
    (grant : Grant) (resolver : Resolver) (hd : grant.denied = false)
    (hcondition : ∀ f, grant.condition = some f → f.IsSettled)
    (hrelated : ∀ entry ∈ grant.relConditions, entry.2.IsSettled) :
    (∃ plan, (Request.all collection limit).plan reader grant resolver = .ok plan) ↔
      (∃ c, reader.catalog.find collection = .ok c ∧
        ∀ entry ∈ grant.relConditions, c.hasRelation entry.1 = true) ∧
      0 ≤ reader.maxDepth ∧ -1 ≤ limit := by
  constructor
  · rintro ⟨plan, hplan⟩
    obtain ⟨c, f, related, hc, hp⟩ := made_of_plan hd hplan
    obtain ⟨s, hs, -⟩ := Outcome.map_eq_ok.1 hp.selection
    exact ⟨⟨c, hc, checkRelations_eq_ok.1 hp.relations⟩,
      (Selection.length_le_of_expand hs).1, (exists_paginate_all_iff _ _).1 ⟨_, hp.page⟩⟩
  · rintro ⟨⟨c, hc, hrelations⟩, hdepth, hlimit⟩
    obtain ⟨filter, hfilter⟩ : ∃ g, resolver.resolveFilter
        (mergeFilters none grant.condition grant.unrestricted) = .ok g :=
      Resolver.exists_resolveFilter (Filter.IsSettled.merge hcondition _)
    obtain ⟨relConditions, hresolved⟩ : ∃ gs, resolveAll resolver
        (mergeRelConditions [] grant.relConditions grant.unrestricted) = .ok gs :=
      Resolver.exists_resolveAll fun entry hentry =>
        of_mem_mergeRelConditions (P := fun _ f => f.IsSettled)
          (fun _ f g hf hg => .conjoin (by simp [hf, hg])) (fun _ _ h => absurd h List.not_mem_nil)
          (fun name f h => hrelated (name, f) h) hentry
    obtain ⟨s, hs⟩ := Selection.exists_expand_none reader.catalog c hdepth
    obtain ⟨page, hpage⟩ := (exists_paginate_all_iff collection limit).2 hlimit
    obtain ⟨plan, hplan⟩ :
        ∃ plan, (Request.all collection limit).planGranted reader c grant resolver = .ok plan := by
      simp only [planGranted, Outcome.bind_eq_ok]
      exact ⟨_, none, rfl, filter, hfilter, [], rfl, (), checkRelations_eq_ok.2 hrelations,
        relConditions, hresolved, [], rfl, [], rfl, (), rfl, _,
        Outcome.map_eq_ok.2 ⟨s, hs, rfl⟩, [], rfl, none, rfl, page, hpage, rfl⟩
    refine ⟨plan, Outcome.bind_eq_ok.2 ⟨c, hc, ?_⟩⟩
    rw [hd, if_neg Bool.false_ne_true]
    exact hplan

end Request

/-! ## Rules -/

namespace Permission

variable {p : Permission} {reader : FilterReader} {c : Collection} {condition : Option Filter}
  {related : Named Filter} {defaults : Record}

theorem exists_texts {items : List Value} (h : items.all isPath = true) :
    ∃ fields : List String, items = fields.map .text := by
  induction items with
  | nil => exact ⟨[], rfl⟩
  | cons item items ih =>
      rw [List.all_cons, Bool.and_eq_true] at h
      obtain ⟨fields, rfl⟩ := ih h.2
      cases item with
      | text s => exact ⟨s :: fields, rfl⟩
      | _ => cases h.1

/-- An allowlist can be made of field paths that were checked. -/
theorem exists_ofFields {v : Value} (h : checkFields v = .ok ()) :
    ∃ a, Allowlist.ofFields v = .ok a := by
  cases v with
  | null => exact ⟨.all, rfl⟩
  | list items =>
      rw [checkFields] at h
      split at h
      case isTrue hpaths =>
        obtain ⟨fields, rfl⟩ := exists_texts hpaths
        exact ⟨_, Allowlist.ofFields_texts fields⟩
      case isFalse => exact absurd h (Outcome.refuse_ne_ok _ _)
  | _ => exact absurd h (Outcome.refuse_ne_ok _ _)

/-- What a rule was found to say when it was accepted. -/
structure Accepted (p : Permission) (reader : FilterReader) (c : Collection)
    (condition : Option Filter) (related : Named Filter) (defaults : Record) : Prop where
  /-- The collection is there. -/
  collection : reader.catalog.find p.collection = .ok c
  /-- The field paths are absent or texts. -/
  fields : checkFields p.fields = .ok ()
  /-- The condition can be read. -/
  condition : reader.parse p.collection (.raw p.conditions) = .ok condition
  /-- The conditions on related rows can be read. -/
  related : reader.parseRelConditions p.collection p.relConditions = .ok related
  /-- The values are a record. -/
  values : p.defaultValues = .record defaults
  /-- Each value is for a field. -/
  known : ∀ entry ∈ defaults, c.hasField entry.1 = true

theorem exists_of_checkDefaults {v : Value} (h : checkDefaults c v = .ok ()) :
    ∃ defaults, v = .record defaults ∧ ∀ entry ∈ defaults, c.hasField entry.1 = true := by
  cases v with
  | record entries =>
      rw [checkDefaults] at h
      split at h
      case h_1 => exact absurd h (Outcome.refuse_ne_ok _ _)
      case h_2 hnone =>
        refine ⟨entries, rfl, fun entry hentry => ?_⟩
        simpa using List.find?_eq_none.1 hnone entry hentry
  | _ => exact absurd h (Outcome.refuse_ne_ok _ _)

theorem exists_accepted (h : p.check reader = .ok ()) :
    ∃ c condition related defaults, p.Accepted reader c condition related defaults := by
  simp only [check, Outcome.bind_eq_ok] at h
  obtain ⟨c, hc, _, hfields, _, -, condition, hcondition, related, hrelated, hdefaults⟩ := h
  obtain ⟨defaults, heq, hknown⟩ := exists_of_checkDefaults hdefaults
  exact ⟨c, condition, related, defaults, hc, hfields, hcondition, hrelated, heq, hknown⟩

/-- A rule that was accepted grants what it was found to say. -/
theorem Accepted.exists_grant (h : p.Accepted reader c condition related defaults) :
    ∃ a, p.grant reader = .ok ⟨a, condition, related, defaults, false, false⟩ := by
  obtain ⟨a, ha⟩ := exists_ofFields h.fields
  refine ⟨a, ?_⟩
  rw [grant, ha, h.condition, h.related, h.values]
  rfl

/-- What the rule grants is put to use without fail. -/
structure Works (p : Permission) (reader : FilterReader) (grant : Grant) : Prop where
  /-- Something may be done. -/
  allowed : grant.denied = false
  /-- Once the rule is published as the only one for its key, this is what everyone in its role but
  administrators is granted. -/
  granted : ∀ (s : Snapshot) (ps : List Permission) (caller : Caller) (role : Role), p ∈ ps →
    (∀ q ∈ ps, p.sameKey q = true → q = p) → caller.isAdmin = false → caller.role = some role →
    role.id = p.role → (s.publish ps).grant reader caller p.collection p.action = .ok grant
  /-- The request without parameters can be planned, whoever asks, if settings allow it at all. -/
  planned : ∀ limit, ∃ request, Request.ofParameters p.collection [] limit = .ok request ∧
    ∀ resolver, (∃ plan, request.plan reader grant resolver = .ok plan) ↔
      0 ≤ reader.maxDepth ∧ -1 ≤ limit
  /-- If collections change in the meantime, it can still be planned, unless this one is not there
  any more or does not have a relation that the rule has a condition on. -/
  planned_later : ∀ limit, ∃ request, Request.ofParameters p.collection [] limit = .ok request ∧
    ∀ (later : FilterReader) resolver, (∃ plan, request.plan later grant resolver = .ok plan) ↔
      (∃ c, later.catalog.find p.collection = .ok c ∧
        ∀ entry ∈ grant.relConditions, c.hasRelation entry.1 = true) ∧
      0 ≤ later.maxDepth ∧ -1 ≤ limit
  /-- The values are those of the rule. -/
  defaults : p.defaultValues = .record grant.defaultValues
  /-- The values are put over those of every payload and never turn it down. -/
  prepared : ∀ c, reader.catalog.find p.collection = .ok c → ∀ resolver data,
    Payload.prepare reader.catalog c grant resolver data =
      (Payload.prepare reader.catalog c { grant with defaultValues := [] } resolver data).map
        fun q => { q with values := q.values.putAll grant.defaultValues }

end Permission

/-- **A rule that is accepted works**, if nothing in it waits for the caller: it grants something to
those it is for, and what it grants turns down neither their requests nor their payloads. -/
theorem accepted_rule_works {p : Permission} {reader : FilterReader}
    (hcheck : p.check reader = .ok ()) (hconditions : p.conditions.hasVariable = false)
    (hrelated : p.relConditions.hasVariable = false)
    (hdefaults : p.defaultValues.hasVariable = false) : ∃ grant, p.Works reader grant := by
  obtain ⟨c, condition, related, defaults, hp⟩ := Permission.exists_accepted hcheck
  obtain ⟨a, hgrant⟩ := hp.exists_grant
  have hcondition : ∀ f, condition = some f → f.IsSettled := by
    rintro f rfl
    exact FilterReader.isSettled_of_parse hp.condition hconditions
  have hsettled := FilterReader.isSettled_of_parseRelConditions hp.related hrelated
  have hrelations : ∀ entry ∈ related, c.hasRelation entry.1 = true := by
    intro entry hentry
    have hrelation := (hsettled entry hentry).1
    rwa [← Catalog.name_of_find hp.collection, Catalog.relation?_of_find hp.collection] at hrelation
  have hplan (later : FilterReader) (limit : Int) (resolver : Resolver) :=
    Request.exists_plan_all_iff later p.collection limit
      ⟨a, condition, related, defaults, false, false⟩ resolver rfl hcondition
      fun entry hentry => (hsettled entry hentry).2
  refine ⟨⟨a, condition, related, defaults, false, false⟩, {
    allowed := rfl
    granted := ?granted
    planned := fun limit => ⟨_, Request.ofParameters_nil _ _, fun resolver => ?planned⟩
    planned_later := fun limit => ⟨_, Request.ofParameters_nil _ _, fun later resolver =>
      hplan later limit resolver⟩
    defaults := hp.values
    prepared := ?prepared }⟩
  case granted =>
    intro s ps caller role hmem halone hadmin hrole hid
    rw [Snapshot.grant, if_neg (Bool.eq_false_iff.1 hadmin), hrole]
    simp only [hid, Snapshot.find?_publish s hmem halone]
    exact hgrant
  case planned =>
    rw [hplan]
    exact and_iff_right ⟨c, hp.collection, hrelations⟩
  case prepared =>
    intro c' hc' resolver data
    cases hp.collection.symm.trans hc'
    refine Payload.prepare_eq_map hp.known (fun entry hentry => ?_) data
    rw [hp.values] at hdefaults
    exact Resolver.hasVariable_eq_false_iff.1
      (FilterReader.inherited_hasVariable.entry defaults hdefaults entry hentry) resolver

namespace Sample

/-- A rule by which editors put one title on posts by Ada that have another one. -/
def retitle : Permission :=
  { rule .update (.record [("title", .record [("neq", .text "x")])])
      (.record [("title", .text "x")]) with
    fields := .list [.text "title", .text "author.name"]
    relConditions := .record [("author", .record [("name", .text "Ada")])] }

end Sample

/-- The rule on titles says nothing that waits for the caller, so it works. -/
theorem accepted_rule_works_retitle :
    Sample.retitle.check Sample.reader = .ok () ∧
      Sample.retitle.conditions.hasVariable = false ∧
      Sample.retitle.relConditions.hasVariable = false ∧
      Sample.retitle.defaultValues.hasVariable = false ∧
      ∃ grant, Sample.retitle.Works Sample.reader grant := by
  have hcheck : Sample.retitle.check Sample.reader = .ok () := by rfl
  have hconditions : Sample.retitle.conditions.hasVariable = false := by decide
  have hrelated : Sample.retitle.relConditions.hasVariable = false := by decide
  have hdefaults : Sample.retitle.defaultValues.hasVariable = false := by decide
  exact ⟨hcheck, hconditions, hrelated, hdefaults,
    accepted_rule_works hcheck hconditions hrelated hdefaults⟩

end Warden
