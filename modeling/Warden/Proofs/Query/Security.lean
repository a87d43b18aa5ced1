import Warden.Item.Reading
import Warden.Proofs.Filter.Holding
import Warden.Proofs.Query.Plan
import Warden.Proofs.Sample

/-! # Rules are never bypassed

Whatever a caller asks for, the rows that a finished plan or a write reaches satisfy the condition
of the grant, and the related rows its conditions on them. The grant's conditions are merged with
the caller's by conjunction, folded, and rebuilt once more when variables are replaced;
**`Filter.Entails`** is the relation that survives all of this: wherever the one filter holds after
some replacement of conditions, the other one does.

* **`Grant.Bounds`** says what it means that a filter and conditions on related rows stay within a
  grant.
* **`grant_never_bypassed`** is the main statement, for requests, for writes to one row and for
  reading one item. -/

namespace Warden

/-! ## Merging -/

/-- Wherever the first filter holds after a replacement of conditions, the second one does. -/
def Filter.Entails (f g : Filter) : Prop :=
  ∀ (m : Condition → Outcome Filter) (record : Record),
    f.HoldsUnder m record → g.HoldsUnder m record

theorem Filter.Entails.refl (f : Filter) : f.Entails f := fun _ _ h => h

theorem Filter.Entails.trans {f g e : Filter} (h₁ : f.Entails g) (h₂ : g.Entails e) :
    f.Entails e := fun m record h => h₂ m record (h₁ m record h)

/-- Merging keeps the rule's condition. -/
theorem mergeFilters_entails_rule (caller : Option Filter) (rule : Filter) :
    (mergeFilters caller (some rule) false).Entails rule := by
  intro m record h
  cases caller with
  | none => exact h
  | some f => exact Filter.holdsUnder_conjoin.1 h rule (by simp)

/-- Merging keeps the caller's condition. -/
theorem mergeFilters_entails_caller (f rule : Filter) :
    (mergeFilters (some f) (some rule) false).Entails f := by
  intro m record h
  exact Filter.holdsUnder_conjoin.1 h f (by simp)

/-- A condition that stands under a name entails what stood there before a further merge. -/
theorem exists_find?_mergeRelConditions (caller security : Named Filter) {name : String}
    {f : Filter} (h : caller.find? name = some f) :
    ∃ g, (mergeRelConditions caller security false).find? name = some g ∧ g.Entails f := by
  induction security generalizing caller f with
  | nil => exact ⟨f, h, Filter.Entails.refl f⟩
  | cons entry security ih =>
      obtain ⟨other, rule⟩ := entry
      by_cases hn : name = other
      · subst hn
        obtain ⟨g, hg, hge⟩ :=
          ih (caller.insert name (mergeFilters (caller.find? name) (some rule) false))
            (Named.find?_insert_self _ _ _)
        rw [h] at hge
        exact ⟨g, hg, hge.trans (mergeFilters_entails_caller f rule)⟩
      · exact ih (caller.insert other (mergeFilters (caller.find? other) (some rule) false))
          ((Named.find?_insert_of_ne _ _ hn).trans h)

/-- Every condition that a rule has on related rows is kept under its relation. -/
theorem mergeRelConditions_entails_rule (caller security : Named Filter) {name : String}
    {rule : Filter} (h : (name, rule) ∈ security) :
    ∃ g, (mergeRelConditions caller security false).find? name = some g ∧ g.Entails rule := by
  induction security generalizing caller with
  | nil => cases h
  | cons entry security ih =>
      rcases List.mem_cons.1 h with rfl | h
      · obtain ⟨g, hg, hge⟩ := exists_find?_mergeRelConditions
          (caller.insert name (mergeFilters (caller.find? name) (some rule) false)) security
          (Named.find?_insert_self _ _ _)
        exact ⟨g, hg, hge.trans (mergeFilters_entails_rule _ rule)⟩
      · exact ih _ h

/-! ## Replacing variables -/

/-- The filter holds only where the rule's variables can be replaced and the rule then holds. -/
def Filter.Within (f : Filter) (resolver : Resolver) (rule : Filter) : Prop :=
  ∀ record, f.evaluate record = .ok .holds →
    ∃ g, resolver.resolveFilter rule = .ok g ∧ g.evaluate record = .ok .holds

variable {resolver : Resolver}

/-- A filter with variables replaced stays within all that it entailed before. -/
theorem Filter.Entails.within {f g rule : Filter} (h : f.Entails rule)
    (hg : resolver.resolveFilter f = .ok g) : g.Within resolver rule :=
  fun record hr => h resolver.resolveCondition record ⟨g, hg, hr⟩

/-! ## Grants -/

/-- A condition on rows and conditions on related rows stay within a grant: they hold only where the
grant's own conditions hold, and no relation on which the grant has a condition goes without. -/
structure Grant.Bounds (grant : Grant) (resolver : Resolver) (f : Filter)
    (relConditions : Named Filter) : Prop where
  /-- The row satisfies the grant's condition. -/
  row : ∀ rule, grant.condition = some rule → f.Within resolver rule
  /-- The related rows satisfy the grant's conditions on them. -/
  related : ∀ name rule, (name, rule) ∈ grant.relConditions →
    ∃ g, relConditions.find? name = some g ∧ g.Within resolver rule

variable {grant : Grant}

/-- What is merged with a grant and has its variables replaced stays within the grant. -/
theorem Grant.bounds_of_merged (hu : grant.unrestricted = false) {caller : Option Filter}
    {related : Named Filter} {f : Filter} {relConditions : Named Filter}
    (hf : resolver.resolveFilter (mergeFilters caller grant.condition grant.unrestricted) = .ok f)
    (hrel : Request.resolveAll resolver
      (mergeRelConditions related grant.relConditions grant.unrestricted) = .ok relConditions) :
    grant.Bounds resolver f relConditions := by
  rw [hu] at hf hrel
  constructor
  case row =>
    intro rule hrule
    rw [hrule] at hf
    exact (mergeFilters_entails_rule caller rule).within hf
  case related =>
    intro name rule hmem
    obtain ⟨g, hg, hge⟩ := mergeRelConditions_entails_rule related grant.relConditions hmem
    obtain ⟨g', hg', hr⟩ := (Request.alike_resolveAll hrel).exists_find? hg
    exact ⟨g', hg', hge.within hr⟩

/-- The plan of a request stays within the grant. -/
theorem Request.plan_bounds (hu : grant.unrestricted = false) (hd : grant.denied = false)
    {r : Request} {reader : FilterReader} {p : Plan}
    (h : r.plan reader grant resolver = .ok p) :
    grant.Bounds resolver p.filter p.relConditions := by
  obtain ⟨_, _, _, _, hp⟩ := Request.made_of_plan hd h
  exact Grant.bounds_of_merged hu hp.filter hp.relConditions

/-- The rows that a write may reach stay within the grant. -/
theorem Grant.rowSecurity_bounds (hu : grant.unrestricted = false) {c : Collection} {key : Value}
    {s : RowSecurity} (h : grant.rowSecurity c resolver key = .ok s) :
    grant.Bounds resolver s.filter s.relConditions := by
  simp only [Grant.rowSecurity, Outcome.bind_eq_ok, Outcome.pure_eq_ok] at h
  obtain ⟨f, hf, _, _, relConditions, hrel, rfl⟩ := h
  exact Grant.bounds_of_merged hu hf hrel

/-- A further conjunct keeps rows within the grant. -/
theorem Grant.Bounds.conjoin {f : Filter} {relConditions : Named Filter}
    (h : grant.Bounds resolver f relConditions) (e : Filter) :
    grant.Bounds resolver (Filter.conjoin [e, f]) relConditions := by
  refine ⟨fun rule hrule record hr => ?_, h.related⟩
  exact h.row rule hrule record (Filter.holds_conjoin.1 hr f (by simp))

/-- The plan for one item, with the condition on its key, stays within the grant. -/
theorem Context.itemPlan_bounds (hu : grant.unrestricted = false) (hd : grant.denied = false)
    {x : Context} {c : Collection} {key : String} {fields : Option (List String)} {p : Plan}
    (h : x.itemPlan grant c key fields = .ok p) :
    grant.Bounds x.resolver p.filter p.relConditions := by
  simp only [Context.itemPlan, Outcome.bind_eq_ok, Outcome.pure_eq_ok] at h
  obtain ⟨q, hq, rfl⟩ := h
  exact (Request.plan_bounds hu hd hq).conjoin _

/-- **No request widens a grant.** Under a grant that is not unrestricted, and whatever the request,
the rows of a finished plan, the rows that a change or deletion of an item may reach and the row
that reading an item may return satisfy the grant's condition, and their related rows the grant's
conditions on them, all with the caller's variables replaced. Under a denied grant nothing matches.
-/
theorem grant_never_bypassed (grant : Grant) :
    (grant.unrestricted = false → grant.denied = false →
      (∀ (r : Request) (reader : FilterReader) (resolver : Resolver) (p : Plan),
        r.plan reader grant resolver = .ok p → grant.Bounds resolver p.filter p.relConditions) ∧
      (∀ (c : Collection) (resolver : Resolver) (key : Value) (s : RowSecurity),
        grant.rowSecurity c resolver key = .ok s →
          grant.Bounds resolver s.filter s.relConditions) ∧
      (∀ (x : Context) (c : Collection) (key : String) (fields : Option (List String)) (p : Plan),
        x.itemPlan grant c key fields = .ok p →
          grant.Bounds x.resolver p.filter p.relConditions)) ∧
    (grant.denied = true →
      ∀ (r : Request) (reader : FilterReader) (resolver : Resolver) (p : Plan),
        r.plan reader grant resolver = .ok p → p.filter = .none) := by
  refine ⟨fun hu hd => ⟨?_, ?_, ?_⟩, ?_⟩
  · intro r reader resolver p h
    exact Request.plan_bounds hu hd h
  · intro c resolver key s h
    exact Grant.rowSecurity_bounds hu h
  · intro x c key fields p h
    exact Context.itemPlan_bounds hu hd h
  · intro hd r reader resolver p h
    obtain ⟨c, -, rfl⟩ := Request.plan_of_denied hd h
    rfl

/-- A request for drafts and for another author's posts. -/
def Sample.widening : Request :=
  { Request.all "posts" 10 with
    filter := .raw (.record [("OR", .list [.record [("title", .text "draft")],
      .record [("author_id", .text "user-2")]])])
    relConditions := [("author", .raw (.record [("name", .text "Eve")]))] }

/-- The request, a change of a post and reading a post stay within a rule for own posts, and under a
denied grant the request matches nothing. -/
theorem grant_never_bypassed_ownPosts :
    (∃ p, Sample.widening.plan Sample.reader Sample.ownPosts Sample.resolver = .ok p ∧
      Sample.ownPosts.Bounds Sample.resolver p.filter p.relConditions) ∧
    (∃ s, Sample.ownPosts.rowSecurity Sample.posts Sample.resolver (.text "post-1") = .ok s ∧
      Sample.ownPosts.Bounds Sample.resolver s.filter s.relConditions) ∧
    (∃ p, Sample.context.itemPlan Sample.ownPosts Sample.posts "post-1" none = .ok p ∧
      Sample.ownPosts.Bounds Sample.context.resolver p.filter p.relConditions) ∧
    ∃ p, Sample.widening.plan Sample.reader Grant.deny Sample.resolver = .ok p ∧
      p.filter = .none := by
  obtain ⟨hplan, hwrite, hitem⟩ := (grant_never_bypassed Sample.ownPosts).1 rfl rfl
  refine ⟨?_, ?_, ?_, ?_⟩
  · obtain ⟨p, h⟩ : ∃ p, Sample.widening.plan Sample.reader Sample.ownPosts Sample.resolver =
      .ok p := ⟨_, rfl⟩
    exact ⟨p, h, hplan _ _ _ p h⟩
  · obtain ⟨s, h⟩ : ∃ s, Sample.ownPosts.rowSecurity Sample.posts Sample.resolver
      (.text "post-1") = .ok s := ⟨_, rfl⟩
    exact ⟨s, h, hwrite _ _ _ s h⟩
  · obtain ⟨p, h⟩ : ∃ p, Sample.context.itemPlan Sample.ownPosts Sample.posts "post-1" none =
      .ok p := ⟨_, rfl⟩
    exact ⟨p, h, hitem _ _ _ _ p h⟩
  · obtain ⟨p, h⟩ : ∃ p, Sample.widening.plan Sample.reader Grant.deny Sample.resolver =
      .ok p := ⟨_, rfl⟩
    exact ⟨p, h, (grant_never_bypassed Grant.deny).2 rfl _ _ _ p h⟩

end Warden
