import Warden.Access.Variable
import Warden.Proofs.Filter.Folding

/-! # Fields of filters with variables

Variables stand in the values of conditions. Replacing them changes no field, so what a filter looks
at is known before its variables are (`Resolver.exists_field_of_mem_resolveFilter`). -/

namespace Warden

/-- Replacing the variables of a condition keeps its field. -/
theorem Resolver.field_of_mem_resolveCondition {resolver : Resolver} {b c : Condition} {f : Filter}
    (h : resolver.resolveCondition b = .ok f) (hc : c ∈ f.conditions) : c.field = b.field := by
  rw [Resolver.resolveCondition] at h
  split at h
  · simp only [Outcome.bind_eq_ok, Outcome.pure_eq_ok] at h
    obtain ⟨v, _, _, _, rfl⟩ := h
    obtain rfl := List.mem_singleton.1 hc
    rfl
  · cases h
    obtain rfl := List.mem_singleton.1 hc
    rfl

/-- Replacing the variables of a filter keeps its fields. -/
theorem Resolver.exists_field_of_mem_resolveFilter {resolver : Resolver} {f g : Filter}
    (h : resolver.resolveFilter f = .ok g) {c : Condition} (hc : c ∈ g.conditions) :
    ∃ b ∈ f.conditions, c.field = b.field := by
  obtain ⟨b, hb, e, he, hce⟩ := Filter.mem_conditions_of_mapConditions h hc
  exact ⟨b, hb, Resolver.field_of_mem_resolveCondition he hce⟩

end Warden
