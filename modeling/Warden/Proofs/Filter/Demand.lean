import Warden.Proofs.Filter.Holding
import Warden.Query.Merge

/-! # What a filter demands

A filter **demands** another one if that is among its conjuncts, or if it matches nothing at all, as
a conjunction does that was folded to a constant (**`Filter.Demands`**). What is demanded stays so
when a rule's condition is merged with the filter and when conditions are replaced. -/

namespace Warden

namespace Filter

variable {f g : Filter} {fs : List Filter} {m : Condition → Outcome Filter} {record : Record}

/-- The filter matches nothing, or the other one is among its conjuncts. -/
def Demands (f g : Filter) : Prop :=
  f = .none ∨ g ∈ f.conjuncts

/-- What a filter demands holds wherever it does. -/
theorem Demands.holds (h : f.Demands g) (hf : f.Holds record) : g.Holds record := by
  rcases h with rfl | hg
  · exact absurd hf not_holds_none
  · cases f with
    | conj fs => exact holds_conj.1 hf g hg
    | all => cases hg
    | leaf | disj | neg | none =>
        obtain rfl := List.mem_singleton.1 hg
        exact hf

theorem mem_conjuncts_ofConjuncts (hg : g.conjuncts = [g]) (h : g ∈ fs) :
    g ∈ (ofConjuncts fs).conjuncts := by
  match fs, h with
  | [f], h =>
      obtain rfl := List.mem_singleton.1 h
      rw [ofConjuncts, hg]
      exact List.mem_singleton_self g
  | _ :: _ :: _, h => exact h

/-- A folded conjunction demands its parts. -/
theorem demands_conjoin (hg : g.conjuncts = [g]) (h : g ∈ fs) : (conjoin fs).Demands g := by
  rw [conjoin]
  split
  · exact .inl rfl
  · refine .inr (mem_conjuncts_ofConjuncts hg (List.mem_flatMap.2 ⟨g, h, ?_⟩))
    rw [hg]
    exact List.mem_singleton_self g

/-- What a filter demands, it demands with conditions replaced, if the replacement has no parts. -/
theorem Demands.mapConditions {c : Condition} (h : f.Demands (.leaf c)) {f' : Filter}
    (hf : f.mapConditions m = .ok f') :
    f' = .none ∨ ∃ g, m c = .ok g ∧ (g.conjuncts = [g] → f'.Demands g) := by
  rcases h with rfl | hc
  · cases hf
    exact .inl rfl
  · cases f with
    | conj fs =>
        simp only [Filter.mapConditions, Outcome.bind_eq_ok, Outcome.pure_eq_ok] at hf
        obtain ⟨gs, hgs, rfl⟩ := hf
        obtain ⟨g, hg, hm⟩ := exists_mapConditions_of_mem hgs hc
        exact .inr ⟨g, hm, fun hleaf => demands_conjoin hleaf hg⟩
    | all => cases hc
    | leaf b =>
        obtain rfl := Filter.leaf.inj (List.mem_singleton.1 hc)
        refine .inr ⟨f', hf, fun hleaf => .inr ?_⟩
        rw [hleaf]
        exact List.mem_singleton_self f'
    | disj | neg | none => cases List.mem_singleton.1 hc

end Filter

/-- A filter that is merged with a rule's condition is still demanded. -/
theorem mergeFilters_demands {f : Filter} (hf : f.conjuncts = [f]) (rule : Option Filter)
    (unrestricted : Bool) : (mergeFilters (some f) rule unrestricted).Demands f := by
  have hself : f.Demands f := by
    rw [Filter.Demands, hf]
    exact .inr (List.mem_singleton_self f)
  match rule, unrestricted with
  | _, true | none, false => exact hself
  | some g, false => exact Filter.demands_conjoin hf (by simp)

end Warden
