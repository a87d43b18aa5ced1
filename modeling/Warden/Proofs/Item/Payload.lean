import Warden.Item.Payload
import Warden.Proofs.Named
import Warden.Proofs.Outcome

/-! # The grant's own values in a payload

The values that a grant sets come last in the preparation of a payload, so each of them stands in
the values of the payload whatever was sent (`find?_of_prepare`). Values of fields in which nothing
is to be replaced are put there without fail (`prepare_eq_map`). -/

namespace Warden.Payload

variable {k : Catalog} {c : Collection} {grant : Grant} {r : Resolver} {p q : Payload}

/-- The grant's own values are replaced for their variables and put over what was sent. -/
theorem exists_putAll_of_setDefault {defaults : Record}
    (h : defaults.foldlM (fun p (name, v) => setDefault c r p name v) p = .ok q) :
    ∃ resolved, Named.Alike (fun v w => r.resolve v = .ok w) defaults resolved ∧
      q = { p with values := p.values.putAll resolved } := by
  induction defaults generalizing p with
  | nil =>
      cases h
      exact ⟨[], .nil, rfl⟩
  | cons entry defaults ih =>
      obtain ⟨name, v⟩ := entry
      rw [List.foldlM_cons, Outcome.bind_eq_ok] at h
      obtain ⟨p', hp', h⟩ := h
      obtain ⟨w, hw, rfl⟩ : ∃ w, r.resolve v = .ok w ∧
          { p with values := p.values.insert name w } = p' := by
        simp only [setDefault] at hp'
        split at hp'
        · exact absurd hp' (Outcome.refuse_ne_ok _ _)
        · simpa only [Outcome.bind_eq_ok, Outcome.pure_eq_ok] using hp'
      obtain ⟨resolved, halike, rfl⟩ := ih h
      exact ⟨(name, w) :: resolved, .cons ⟨rfl, hw⟩ halike, rfl⟩

/-- **The grant's own values stand in the payload**, with their variables replaced. -/
theorem find?_of_prepare {data v : Value} {name : String}
    (h : prepare k c grant r data = .ok p)
    (hv : (Named.ofEntries grant.defaultValues).find? name = some v) :
    ∃ w, r.resolve v = .ok w ∧ p.values.find? name = some w := by
  cases data with
  | record entries =>
      rw [prepare, Outcome.bind_eq_ok] at h
      obtain ⟨sent, -, h⟩ := h
      obtain ⟨resolved, halike, rfl⟩ := exists_putAll_of_setDefault h
      have hlast := Named.Alike.putAll .nil halike
      obtain ⟨w, hw, hr⟩ := hlast.exists_find? hv
      refine ⟨w, hr, ?_⟩
      rw [Named.find?_putAll, Named.ofEntries_eq_putAll, hw, Option.some_or]
  | _ => exact absurd h (Outcome.refuse_ne_ok _ _)

/-- Values of fields in which nothing is to be replaced are put over what was sent. -/
theorem setDefaults_eq_ok {defaults : Record}
    (hfields : ∀ entry ∈ defaults, c.hasField entry.1 = true)
    (hvalues : ∀ entry ∈ defaults, r.resolve entry.2 = .ok entry.2) (p : Payload) :
    defaults.foldlM (fun p (name, v) => setDefault c r p name v) p =
      .ok { p with values := p.values.putAll defaults } := by
  induction defaults generalizing p with
  | nil => rfl
  | cons entry defaults ih =>
      obtain ⟨name, v⟩ := entry
      obtain ⟨hfield, hfields⟩ := List.forall_mem_cons.1 hfields
      obtain ⟨hvalue, hvalues⟩ := List.forall_mem_cons.1 hvalues
      have hset : setDefault c r p name v = .ok { p with values := p.values.insert name v } := by
        rw [setDefault, hfield, hvalue]
        rfl
      rw [List.foldlM_cons, Outcome.bind_eq_ok]
      exact ⟨_, hset, ih hfields hvalues _⟩

/-- **Values of fields in which nothing is to be replaced never turn a payload down**: what is
prepared is what the payload is without them, and then they are put over it. -/
theorem prepare_eq_map (hfields : ∀ entry ∈ grant.defaultValues, c.hasField entry.1 = true)
    (hvalues : ∀ entry ∈ grant.defaultValues, r.resolve entry.2 = .ok entry.2) (data : Value) :
    prepare k c grant r data = (prepare k c { grant with defaultValues := [] } r data).map
      fun p => { p with values := p.values.putAll grant.defaultValues } := by
  cases data with
  | record entries =>
      rw [prepare, prepare]
      cases entries.foldlM (fun p (name, v) => addEntry k c grant.allowlist p name v) ⟨[], []⟩ with
      | error e => rfl
      | ok sent => exact setDefaults_eq_ok hfields hvalues sent
  | _ => rfl

end Warden.Payload
