import Warden.Query.Plan
import Warden.Proofs.Named
import Warden.Proofs.Outcome

/-! # Where the parts of a plan come from

A plan under a grant that is not denied is put together from parts, each of which is made, and
possibly refused, on its own. **`Plan.Made`** lists every part with what it is made of, and
`made_of_planGranted` takes a finished plan apart into them, so no later proof unfolds the making of
a plan. Under a denied grant the plan is the empty one (`plan_of_denied`). -/

namespace Warden

/-- What every part of a plan is made of: the caller's own filter `f` and own conditions on related
rows `related` as they were read, and the parts of the grant. -/
structure Plan.Made (p : Plan) (r : Request) (reader : FilterReader) (c : Collection)
    (grant : Grant) (resolver : Resolver) (f : Option Filter) (related : Named Filter) : Prop where
  /-- The plan is for the collection. -/
  collection : p.collection = c.name
  /-- The visible fields are those of the grant. -/
  allowlist : p.allowlist = grant.allowlist
  /-- The time is that of the variables. -/
  now : p.now = resolver.now
  /-- The caller's filter is read against the collection. -/
  own : reader.parse c.name r.filter = .ok f
  /-- The rows: the caller's visible conditions and the grant's, with every token replaced. -/
  filter : resolver.resolveFilter
    (mergeFilters (f.map (Filter.prune grant.allowlist)) grant.condition grant.unrestricted) =
      .ok p.filter
  /-- The caller's conditions on related rows are read, without the hidden ones. -/
  ownRelated :
    Request.planRelConditions reader c grant.allowlist r.relConditions = .ok related
  /-- The grant's conditions are on relations of the collection. -/
  relations : Request.checkRelations c grant.relConditions = .ok ()
  /-- The related rows: the caller's and the grant's conditions, with every token replaced. -/
  relConditions : Request.resolveAll resolver
    (mergeRelConditions related grant.relConditions grant.unrestricted) = .ok p.relConditions
  /-- The aggregates on visible fields. -/
  aggregate : Request.planAggregate c grant.allowlist r.aggregate = .ok p.aggregate
  /-- The group keys on visible fields. -/
  groupBy : Request.planGroups c grant.allowlist r.groupBy = .ok p.groupBy
  /-- Something is left of what is to be aggregated. -/
  visible : r.checkVisible p.aggregate p.groupBy = .ok ()
  /-- The columns, of the aggregates or of the rows. -/
  selection : r.planSelection reader c grant.allowlist p.aggregate p.groupBy = .ok p.selection
  /-- The order, by columns of the aggregates or by visible fields. -/
  sort : r.planOrder reader c grant.allowlist p.aggregate p.groupBy = .ok p.sort
  /-- The search in visible fields. -/
  search : r.planSearch c grant.allowlist = .ok p.search
  /-- The page. -/
  page : r.paginate = .ok (p.limit, p.offset)

/-- A plan asks for aggregates iff its request does: a request of which no aggregate and no group
key is visible has no plan. -/
theorem Plan.Made.isAggregate_eq {p : Plan} {r : Request} {reader : FilterReader} {c : Collection}
    {grant : Grant} {resolver : Resolver} {f : Option Filter} {related : Named Filter}
    (h : p.Made r reader c grant resolver f related) : p.isAggregate = r.isAggregate := by
  have haggregate := h.aggregate
  have hgroups := h.groupBy
  have hvisible := h.visible
  cases hr : r.isAggregate with
  | true =>
      rw [Request.checkVisible, hr] at hvisible
      rw [Plan.isAggregate]
      cases ha : p.aggregate <;> cases hg : p.groupBy <;> simp_all
  | false =>
      -- nothing is asked for, so nothing is left
      simp only [Request.isAggregate, Bool.or_eq_false_iff, Bool.not_eq_false',
        List.isEmpty_iff] at hr
      rw [hr.1] at haggregate
      rw [hr.2] at hgroups
      rw [Plan.isAggregate, ← Except.ok.inj haggregate, ← Except.ok.inj hgroups]
      rfl

namespace Request

variable {r : Request} {reader : FilterReader} {c : Collection} {grant : Grant}
  {resolver : Resolver} {p : Plan}

/-- Replacing all variables keeps the names, and under each of them the filter is replaced. -/
theorem alike_resolveAll {fs gs : Named Filter} (h : resolveAll resolver fs = .ok gs) :
    Named.Alike (fun f g => resolver.resolveFilter f = .ok g) fs gs := by
  induction fs generalizing gs with
  | nil =>
      cases h
      exact .nil
  | cons entry fs ih =>
      obtain ⟨name, f⟩ := entry
      simp only [resolveAll, Outcome.bind_eq_ok, Outcome.pure_eq_ok] at h
      obtain ⟨g, hg, gs, hgs, rfl⟩ := h
      exact .cons ⟨rfl, hg⟩ (ih hgs)

/-- The conditions of a grant are put up with iff they are on relations of the collection. -/
theorem checkRelations_eq_ok {related : Named Filter} :
    checkRelations c related = .ok () ↔ ∀ entry ∈ related, c.hasRelation entry.1 = true := by
  rw [checkRelations]
  split
  case h_1 name f hfind =>
    refine iff_of_false (Outcome.refuse_ne_ok _ _) fun h => ?_
    have hunknown := List.find?_some hfind
    rw [h _ (List.mem_of_find?_eq_some hfind)] at hunknown
    cases hunknown
  case h_2 hnone =>
    refine iff_of_true rfl fun entry hentry => ?_
    simpa using List.find?_eq_none.1 hnone entry hentry

/-- A finished plan taken apart. -/
theorem made_of_planGranted (h : r.planGranted reader c grant resolver = .ok p) :
    ∃ f related, p.Made r reader c grant resolver f related := by
  simp only [planGranted, Outcome.bind_eq_ok, Outcome.pure_eq_ok] at h
  obtain ⟨f, hown, filter, hfilter, related, hrelated, _, hrelations, relConditions, hrel,
    aggregate, haggregate, groupBy, hgroups, _, hvisible, selection, hselection, sort, hsort,
    search, hsearch, page, hpage, rfl⟩ := h
  exact ⟨f, related, rfl, rfl, rfl, hown, hfilter, hrelated, hrelations, hrel, haggregate, hgroups,
    hvisible, hselection, hsort, hsearch, hpage⟩

/-- A plan under a grant that is not denied is made of parts, for a collection of the catalog. -/
theorem made_of_plan (hd : grant.denied = false) (h : r.plan reader grant resolver = .ok p) :
    ∃ c f related, reader.catalog.find r.collection = .ok c ∧
      p.Made r reader c grant resolver f related := by
  simp only [plan, hd, Outcome.bind_eq_ok] at h
  obtain ⟨c, hc, h⟩ := h
  obtain ⟨f, related, hp⟩ := made_of_planGranted h
  exact ⟨c, f, related, hc, hp⟩

/-- Under a denied grant the plan is the one under which nothing matches. -/
theorem plan_of_denied (hd : grant.denied = true) (h : r.plan reader grant resolver = .ok p) :
    ∃ c, reader.catalog.find r.collection = .ok c ∧
      p = emptyPlan c.name grant.allowlist resolver.now := by
  simp only [plan, hd, Outcome.bind_eq_ok] at h
  obtain ⟨c, hc, h⟩ := h
  exact ⟨c, hc, (Outcome.pure_eq_ok.1 h).symm⟩

end Request

end Warden
