import Warden.Proofs.Access.Allowlist
import Warden.Proofs.Access.Variable
import Warden.Proofs.Query.Plan
import Warden.Proofs.Sample

/-! # Hidden fields stay out of plans

Under a grant without conditions of its own, all that a plan reads comes from the request, and the
request is cut down to the fields that the grant allows. Each part of a plan has its own way of
leaving hidden fields out: conditions are pruned (`allowsPath_of_mem_prune`), selections restricted
(`allowsSegments_of_mem_restrict`), and sort keys, search fields, aggregates and group keys dropped
one by one.

* **`Selection.paths`** lists the columns that a selection reads, each with the relations before it.
* **`Plan.Confined`** says that a plan reads allowed fields only, and **`plan_reads_allowed_only`**
  that every finished plan does. -/

namespace Warden

/-! ## Filters -/

namespace Filter

variable {a : Allowlist}

/-- Pruning a list prunes every filter of it. -/
theorem pruneAll_eq_map (a : Allowlist) (fs : List Filter) : pruneAll a fs = fs.map (prune a) := by
  induction fs with
  | nil => rfl
  | cons f fs ih => rw [pruneAll, ih, List.map_cons]

/-- Pruning leaves conditions on allowed paths only. -/
theorem allowsPath_of_mem_prune {f : Filter} {c : Condition} (hc : c ∈ (f.prune a).conditions) :
    a.allowsPath c.field = true := by
  by_cases ha : a.isAll = true
  · exact Allowlist.allowsPath_of_isAll ha c.field
  induction f with
  | leaf b =>
      rw [prune] at hc
      split at hc
      case isTrue hb =>
        obtain rfl := List.mem_singleton.1 hc
        exact hb
      case isFalse => cases hc
  | conj fs ih =>
      rw [prune, if_neg ha, pruneAll_eq_map] at hc
      obtain ⟨g, hg, hcg⟩ := mem_conditions_conjoin hc
      obtain ⟨f, hf, rfl⟩ := List.mem_map.1 hg
      exact ih f hf hcg
  | disj fs ih =>
      rw [prune, if_neg ha, pruneAll_eq_map] at hc
      obtain ⟨g, hg, hcg⟩ := mem_conditions_disjoin hc
      obtain ⟨f, hf, rfl⟩ := List.mem_map.1 hg
      exact ih f hf hcg
  | neg f _ =>
      -- a negation is kept as it is, or not at all
      rw [prune] at hc
      split at hc
      case isTrue hf => exact List.all_eq_true.1 hf c hc
      case isFalse => cases hc
  | all => cases hc
  | none => cases hc

end Filter

/-! ## Selections -/

namespace Selection

mutual

/-- The columns that a selection reads, each behind the relations that lead to it. -/
def paths : Selection → List (List String)
  | node columns relations => columns.map (fun c => [c]) ++ relationPaths relations

/-- The columns that selections behind relations read. -/
def relationPaths : List (String × Selection) → List (List String)
  | [] => []
  | (name, s) :: rest => (paths s).map (name :: ·) ++ relationPaths rest

end

theorem nil_notMem_relationPaths (relations : List (String × Selection)) :
    [] ∉ relationPaths relations := by
  induction relations with
  | nil => simp [relationPaths]
  | cons entry rest ih => simp [relationPaths, ih]

/-- Every path ends with a column. -/
theorem nil_notMem_paths (s : Selection) : [] ∉ s.paths := by
  obtain ⟨columns, relations⟩ := s
  simp [paths, nil_notMem_relationPaths]

/-- The columns behind relations are those of the selections there. -/
theorem mem_relationPaths {relations : List (String × Selection)} {path : List String} :
    path ∈ relationPaths relations ↔
      ∃ entry ∈ relations, ∃ tail ∈ entry.2.paths, path = entry.1 :: tail := by
  induction relations with
  | nil => simp [relationPaths]
  | cons entry rest ih =>
      obtain ⟨name, s⟩ := entry
      rw [relationPaths, List.mem_append, ih, List.mem_map]
      simp [eq_comm]

/-- A path of one segment is a column of the collection itself. -/
theorem mem_paths_singleton {s : Selection} {name : String} :
    [name] ∈ s.paths ↔ name ∈ s.columns := by
  obtain ⟨columns, relations⟩ := s
  rw [paths, List.mem_append, mem_relationPaths]
  constructor
  · rintro (h | ⟨entry, -, tail, htail, h⟩)
    · obtain ⟨column, hcolumn, h⟩ := List.mem_map.1 h
      exact (List.cons_eq_cons.1 h).1 ▸ hcolumn
    · obtain ⟨-, rfl⟩ := List.cons_eq_cons.1 h
      exact absurd htail (nil_notMem_paths _)
  · exact fun h => .inl (List.mem_map_of_mem h)

/-- A longer path is a column of a selection behind a relation. -/
theorem mem_paths_cons {s : Selection} {name : String} {path : List String} (hpath : path ≠ []) :
    name :: path ∈ s.paths ↔ ∃ behind, (name, behind) ∈ s.relations ∧ path ∈ behind.paths := by
  obtain ⟨columns, relations⟩ := s
  rw [paths, List.mem_append, mem_relationPaths]
  constructor
  · rintro (h | ⟨⟨other, behind⟩, hentry, tail, htail, h⟩)
    · obtain ⟨column, -, h⟩ := List.mem_map.1 h
      exact absurd (List.cons_eq_cons.1 h).2.symm hpath
    · obtain ⟨rfl, rfl⟩ := List.cons_eq_cons.1 h
      exact ⟨behind, hentry, htail⟩
  · rintro ⟨behind, hentry, h⟩
    exact .inr ⟨(name, behind), hentry, path, h, rfl⟩

mutual

/-- What is left of a selection is allowed. -/
theorem allowsSegments_of_mem_restrict (a : Allowlist) (s : Selection) :
    ∀ path ∈ (s.restrict a).paths, a.allowsSegments path = true := by
  obtain ⟨columns, relations⟩ := s
  intro path hp
  rw [restrict] at hp
  split at hp
  case isTrue ha =>
    rw [Allowlist.eq_all_of_isAll ha]
    exact Allowlist.allowsSegments_all fun hnil => nil_notMem_paths _ (hnil ▸ hp)
  case isFalse =>
    rw [paths, List.mem_append] at hp
    rcases hp with hp | hp
    · obtain ⟨c, hc, rfl⟩ := List.mem_map.1 hp
      exact (List.mem_filter.1 hc).2
    · exact allowsSegments_of_mem_restrictRelations a relations path hp

/-- What is left behind relations is allowed. -/
theorem allowsSegments_of_mem_restrictRelations (a : Allowlist)
    (relations : List (String × Selection)) :
    ∀ path ∈ relationPaths (restrictRelations a relations), a.allowsSegments path = true := by
  match relations with
  | [] => simp [restrictRelations, relationPaths]
  | (name, s) :: rest =>
      intro path hp
      have hrest := allowsSegments_of_mem_restrictRelations a rest path
      rw [restrictRelations] at hp
      split at hp
      case isFalse => exact hrest hp
      case isTrue hname =>
        dsimp only at hp
        split at hp
        · exact hrest hp
        · rw [relationPaths, List.mem_append] at hp
          rcases hp with hp | hp
          · obtain ⟨tail, ht, rfl⟩ := List.mem_map.1 hp
            have hnil : tail ≠ [] := fun hnil => nil_notMem_paths _ (hnil ▸ ht)
            rw [Allowlist.allowsSegments_cons name hnil, hname,
              allowsSegments_of_mem_restrict (a.forRelation name) s tail ht]
            rfl
          · exact hrest hp

end

end Selection

/-! ## The other parts of a plan -/

namespace Request

variable {reader : FilterReader} {c : Collection} {a : Allowlist}

/-- What is left of the caller's conditions on related rows is allowed. -/
theorem allowed_of_mem_planRelConditions {raw : Named RawFilter} {related : Named Filter}
    (h : planRelConditions reader c a raw = .ok related) {name : String} {f : Filter}
    (hf : (name, f) ∈ related) {b : Condition} (hb : b ∈ f.conditions) :
    a.allowsRelation name = true ∧ (a.forRelation name).allowsPath b.field = true := by
  induction raw generalizing related with
  | nil =>
      cases h
      cases hf
  | cons entry raw ih =>
      obtain ⟨other, raw'⟩ := entry
      rw [planRelConditions] at h
      split at h
      case h_1 => exact absurd h (Outcome.refuse_ne_ok _ _)
      case h_2 relation _ =>
        obtain ⟨own, _, h⟩ := Outcome.bind_eq_ok.1 h
        cases own with
        | none => exact ih h hf
        | some g =>
            obtain ⟨rest, hrest, h⟩ := Outcome.bind_eq_ok.1 h
            obtain rfl := Outcome.pure_eq_ok.1 h
            rcases List.mem_cons.1 hf with hf | hf
            · cases hf
              split at hb
              case isTrue hname => exact ⟨hname, Filter.allowsPath_of_mem_prune hb⟩
              case isFalse => cases hb
            · exact ih hrest hf

/-- What is left of an order is on allowed fields. -/
theorem allowsPath_of_mem_planSort {sort kept : List SortKey}
    (h : planSort reader c a sort = .ok kept) {k : SortKey} (hk : k ∈ kept) :
    a.allowsPath k.field = true := by
  induction sort generalizing kept with
  | nil =>
      cases h
      cases hk
  | cons key sort ih =>
      simp only [planSort, Outcome.bind_eq_ok] at h
      obtain ⟨_, _, h⟩ := h
      split at h
      case isTrue ha =>
        obtain ⟨rest, hrest, h⟩ := Outcome.bind_eq_ok.1 h
        obtain rfl := Outcome.pure_eq_ok.1 h
        rcases List.mem_cons.1 hk with rfl | hk
        · exact ha
        · exact ih hrest hk
      case isFalse => exact ih h hk

/-- What is left of the aggregates is on allowed fields or on all rows. -/
theorem allowsField_of_mem_planAggregate {aggregate kept : Named Aggregate}
    (h : planAggregate c a aggregate = .ok kept) {label : String} {g : Aggregate}
    (hg : (label, g) ∈ kept) : g.field = Aggregate.allRows ∨ a.allowsField g.field = true := by
  induction aggregate generalizing kept with
  | nil =>
      cases h
      cases hg
  | cons entry aggregate ih =>
      obtain ⟨other, e⟩ := entry
      -- an aggregate is kept before the rest, or dropped, or refused
      have hkeep (he : e.field = Aggregate.allRows ∨ a.allowsField e.field = true)
          (h : (do return (other, e) :: (← planAggregate c a aggregate)) = Except.ok kept) :
          g.field = Aggregate.allRows ∨ a.allowsField g.field = true := by
        obtain ⟨rest, hrest, h⟩ := Outcome.bind_eq_ok.1 h
        obtain rfl := Outcome.pure_eq_ok.1 h
        rcases List.mem_cons.1 hg with hg | hg
        · cases hg
          exact he
        · exact ih hrest hg
      rw [planAggregate] at h
      split at h
      case isTrue hall => exact hkeep (.inl hall) h
      case isFalse =>
        split at h
        · exact absurd h (Outcome.refuse_ne_ok _ _)
        · split at h
          · exact absurd h (Outcome.refuse_ne_ok _ _)
          · split at h
            case isTrue ha => exact hkeep (.inr ha) h
            case isFalse => exact ih h hg

/-- What is left of the group keys is on allowed fields. -/
theorem allowsField_of_mem_planGroups {groups kept : List GroupKey}
    (h : planGroups c a groups = .ok kept) {k : GroupKey} (hk : k ∈ kept) :
    a.allowsField k.field = true := by
  induction groups generalizing kept with
  | nil =>
      cases h
      cases hk
  | cons key groups ih =>
      have hstep (h : (if a.allowsField key.field = true then
            do return key :: (← planGroups c a groups)
          else planGroups c a groups) = Except.ok kept) : a.allowsField k.field = true := by
        split at h
        case isTrue ha =>
          obtain ⟨rest, hrest, h⟩ := Outcome.bind_eq_ok.1 h
          obtain rfl := Outcome.pure_eq_ok.1 h
          rcases List.mem_cons.1 hk with rfl | hk
          · exact ha
          · exact ih hrest hk
        case isFalse => exact ih h hk
      rw [planGroups] at h
      split at h
      · exact absurd h (Outcome.refuse_ne_ok _ _)
      · split at h
        · split at h
          · exact absurd h (Outcome.refuse_ne_ok _ _)
          · exact hstep h
        · exact hstep h

/-- What is searched is allowed. -/
theorem allowsField_of_mem_planSearch {r : Request} {s : Search}
    (h : r.planSearch c a = .ok (some s)) {name : String} (hn : name ∈ s.fields) :
    a.allowsField name = true := by
  have hkept (fields : List String) (term : String)
      (h : s = ⟨term, fields.filter a.allowsField, r.sortByRelevance⟩) :
      a.allowsField name = true := by
    rw [h] at hn
    exact (List.mem_filter.1 hn).2
  simp only [planSearch] at h
  split at h
  · cases h
  · split at h
    · cases h
      exact hkept _ _ rfl
    · simp only [Outcome.bind_eq_ok, Outcome.pure_eq_ok] at h
      obtain ⟨_, _, fields, _, h⟩ := h
      cases h
      exact hkept _ _ rfl

end Request

/-! ## Plans -/

/-- A plan reads nothing that an allowlist hides. -/
structure Plan.Confined (p : Plan) (a : Allowlist) : Prop where
  /-- Every condition on rows is on an allowed path. -/
  filter : ∀ c ∈ p.filter.conditions, a.allowsPath c.field = true
  /-- Every condition on related rows is behind an allowed relation and on a path that the
  relation's part of the allowlist allows. -/
  relConditions : ∀ name f, (name, f) ∈ p.relConditions → ∀ c ∈ f.conditions,
    a.allowsRelation name = true ∧ (a.forRelation name).allowsPath c.field = true
  /-- Every selected column is on an allowed path. -/
  selection : p.isAggregate = false →
    ∀ path ∈ p.selection.paths, a.allowsSegments path = true
  /-- Every key of an order of rows is on an allowed path. -/
  sort : p.isAggregate = false → ∀ k ∈ p.sort, a.allowsPath k.field = true
  /-- A plan for aggregates returns its group keys and aggregates. -/
  aggregateSelection : p.isAggregate = true →
    p.selection = .node (p.groupBy.map GroupKey.label ++ p.aggregate.names) []
  /-- A plan for aggregates is ordered by its group keys and aggregates. -/
  aggregateSort : p.isAggregate = true → ∀ k ∈ p.sort,
    k.field ∈ p.groupBy.map GroupKey.label ∨ k.field ∈ p.aggregate.names
  /-- Every searched field is allowed. -/
  search : ∀ s, p.search = some s → ∀ name ∈ s.fields, a.allowsField name = true
  /-- Every aggregated field is allowed. -/
  aggregate : ∀ label g, (label, g) ∈ p.aggregate → g.field ≠ Aggregate.allRows →
    a.allowsField g.field = true
  /-- Every field of a group key is allowed. -/
  groupBy : ∀ k ∈ p.groupBy, a.allowsField k.field = true

namespace Request

variable {r : Request} {reader : FilterReader} {c : Collection} {grant : Grant}
  {resolver : Resolver} {p : Plan} {f : Option Filter} {related : Named Filter}

/-- The conditions of a plan under a grant without a condition are the caller's visible ones. -/
theorem allowsPath_of_mem_filter (hp : p.Made r reader c grant resolver f related)
    (hc : grant.condition = none) {b : Condition} (hb : b ∈ p.filter.conditions) :
    grant.allowlist.allowsPath b.field = true := by
  obtain ⟨e, he, hfield⟩ := Resolver.exists_field_of_mem_resolveFilter hp.filter hb
  rw [hc] at he
  cases f with
  | none => cases hu : grant.unrestricted <;> rw [hu] at he <;> cases he
  | some f =>
      have he : e ∈ (f.prune grant.allowlist).conditions := by
        cases hu : grant.unrestricted <;> rw [hu] at he <;> exact he
      rw [hfield]
      exact Filter.allowsPath_of_mem_prune he

/-- The conditions on related rows under a grant without such conditions are the caller's visible
ones. -/
theorem allowed_of_mem_relConditions (hp : p.Made r reader c grant resolver f related)
    (hrel : grant.relConditions = []) {name : String} {g : Filter}
    (hg : (name, g) ∈ p.relConditions) {b : Condition} (hb : b ∈ g.conditions) :
    grant.allowlist.allowsRelation name = true ∧
      (grant.allowlist.forRelation name).allowsPath b.field = true := by
  have hresolved := hp.relConditions
  have hmerged : mergeRelConditions related [] grant.unrestricted = related := by
    cases grant.unrestricted <;> rfl
  rw [hrel, hmerged] at hresolved
  obtain ⟨e, he, hge⟩ := (alike_resolveAll hresolved).exists_mem hg
  obtain ⟨b', hb', hfield⟩ := Resolver.exists_field_of_mem_resolveFilter hge hb
  rw [hfield]
  exact allowed_of_mem_planRelConditions hp.ownRelated he hb'

/-- The columns of a plan for rows are allowed. -/
theorem allowsSegments_of_mem_paths (hp : p.Made r reader c grant resolver f related)
    (hr : r.isAggregate = false) {path : List String} (hpath : path ∈ p.selection.paths) :
    grant.allowlist.allowsSegments path = true := by
  have hs := hp.selection
  simp only [planSelection, hr, Bool.false_eq_true, if_false, Outcome.map_eq_ok] at hs
  obtain ⟨s, -, hs⟩ := hs
  rw [← hs] at hpath
  exact Selection.allowsSegments_of_mem_restrict _ s path hpath

/-- The order of a plan for rows is on allowed fields. -/
theorem allowsPath_of_mem_sort (hp : p.Made r reader c grant resolver f related)
    (hr : r.isAggregate = false) {k : SortKey} (hk : k ∈ p.sort) :
    grant.allowlist.allowsPath k.field = true := by
  have hs := hp.sort
  simp only [planOrder, hr, Bool.false_eq_true, if_false] at hs
  exact allowsPath_of_mem_planSort hs hk

/-- The columns of a plan for aggregates are its group keys and aggregates. -/
theorem selection_of_isAggregate (hp : p.Made r reader c grant resolver f related)
    (hr : r.isAggregate = true) :
    p.selection = .node (p.groupBy.map GroupKey.label ++ p.aggregate.names) [] := by
  have hs := hp.selection
  simp only [planSelection, hr, if_true, aggregateSelection] at hs
  split at hs
  · cases hs
  · exact (Except.ok.inj hs).symm

/-- The order of a plan for aggregates is by its group keys and aggregates. -/
theorem sort_of_isAggregate (hp : p.Made r reader c grant resolver f related)
    (hr : r.isAggregate = true) {k : SortKey} (hk : k ∈ p.sort) :
    k.field ∈ p.groupBy.map GroupKey.label ∨ k.field ∈ p.aggregate.names := by
  have hs := hp.sort
  simp only [planOrder, hr, if_true, Outcome.map_eq_ok] at hs
  obtain ⟨_, hcheck, hs⟩ := hs
  rw [checkAggregateSort] at hcheck
  split at hcheck
  · cases hcheck
  case h_2 hnone =>
    have hknown := List.find?_eq_none.1 hnone k (hs ▸ hk)
    rw [Bool.not_eq_true, Bool.not_eq_false'] at hknown
    simpa [Named.has, Named.names] using hknown

end Request

/-- **No part of a request makes a plan read a hidden field.** Under a grant without conditions of
its own, every finished plan is confined to the grant's allowlist, whatever the request. -/
theorem plan_reads_allowed_only {r : Request} {reader : FilterReader} {grant : Grant}
    {resolver : Resolver} {p : Plan} (hc : grant.condition = none)
    (hrel : grant.relConditions = []) (h : r.plan reader grant resolver = .ok p) :
    p.Confined grant.allowlist := by
  cases hd : grant.denied with
  | true =>
      -- the empty plan reads nothing
      obtain ⟨c, -, rfl⟩ := Request.plan_of_denied hd h
      constructor <;> simp [Request.emptyPlan, Filter.conditions, Selection.paths,
        Selection.relationPaths, Plan.isAggregate]
  | false =>
      obtain ⟨c, f, related, -, hp⟩ := Request.made_of_plan hd h
      have hkind := hp.isAggregate_eq
      constructor
      case filter => exact fun b hb => Request.allowsPath_of_mem_filter hp hc hb
      case relConditions =>
        exact fun name g hg b hb => Request.allowed_of_mem_relConditions hp hrel hg hb
      case selection =>
        exact fun hr path hpath => Request.allowsSegments_of_mem_paths hp (hkind ▸ hr) hpath
      case sort => exact fun hr k hk => Request.allowsPath_of_mem_sort hp (hkind ▸ hr) hk
      case aggregateSelection => exact fun hr => Request.selection_of_isAggregate hp (hkind ▸ hr)
      case aggregateSort => exact fun hr k hk => Request.sort_of_isAggregate hp (hkind ▸ hr) hk
      case search =>
        intro s hs name hname
        exact Request.allowsField_of_mem_planSearch (hs ▸ hp.search) hname
      case aggregate =>
        intro label g hg hall
        exact (Request.allowsField_of_mem_planAggregate hp.aggregate hg).resolve_left hall
      case groupBy => exact fun k hk => Request.allowsField_of_mem_planGroups hp.groupBy hk

/-- A request whose filter, conditions on authors, order and search all name hidden fields. -/
def Sample.prying : Request :=
  { Request.all "posts" 10 with
    filter := .raw (.record [("title", .text "a"), ("author_id", .text "user-2")])
    relConditions := [("author", .raw (.record [("id", .text "u"), ("name", .text "Ada")]))]
    sort := [⟨"author.id", .ascending⟩, ⟨"author.name", .ascending⟩]
    search := some "ada" }

/-- What is left of it under a rule for titles and the names of authors. -/
def Sample.pryingPlan : Plan :=
  { Request.emptyPlan "posts" titlesOnly.allowlist noon with
    filter := .leaf ⟨"title", .eq, .text "a", none⟩
    relConditions := [("author", .leaf ⟨"name", .eq, .text "Ada", none⟩)]
    selection := .node ["title"] []
    sort := [⟨"author.name", .ascending⟩]
    limit := 10
    search := some ⟨"ada", ["title"], false⟩ }

/-- A request that names hidden fields has a plan, which reads none of them. -/
theorem plan_reads_titles_only :
    Sample.prying.plan Sample.reader Sample.titlesOnly Sample.resolver = .ok Sample.pryingPlan ∧
      Sample.pryingPlan.Confined Sample.titlesOnly.allowlist := by
  have h : Sample.prying.plan Sample.reader Sample.titlesOnly Sample.resolver =
      .ok Sample.pryingPlan := by rfl
  exact ⟨h, plan_reads_allowed_only rfl rfl h⟩

end Warden
