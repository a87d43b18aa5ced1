import Warden.Proofs.Query.Expansion
import Warden.Proofs.Query.Validity
import Warden.Proofs.Schema.JoinKeys
import Warden.Proofs.Sql.Names

/-! # Joins that are made

**`Build.Gives`** says that a construction with numbered tables gives a result, with one rule for
each way of putting constructions together. The join along a relation gives one iff the relation and
its target are declared (`gives_joinRelation`, `exists_relation_of_joinRelation`). -/

namespace Warden

open Sql

variable {k : Catalog} {c target : Collection} {name : String} {n m : Alias}

namespace Sql

/-! ## Constructions that give a result -/

namespace Build

variable {α β : Type}

/-- The construction gives a result after the number. -/
def Gives (x : Build α) (n : Alias) : Prop :=
  ∃ a m, x n = .ok (a, m)

theorem gives_pure (a : α) (n : Alias) : (pure a : Build α).Gives n :=
  ⟨a, n, rfl⟩

/-- A computation that numbers nothing gives a result iff it has one. -/
theorem gives_lift {x : Outcome α} : (liftM x : Build α).Gives n ↔ ∃ a, x = .ok a := by
  constructor
  · rintro ⟨a, m, h⟩
    exact ⟨a, (lift_eq_ok.1 h).1⟩
  · rintro ⟨a, h⟩
    exact ⟨a, n, lift_eq_ok.2 ⟨h, rfl⟩⟩

/-- A construction whose result is changed gives a result iff it does unchanged. -/
theorem gives_map {x : Build α} {f : α → β} : (f <$> x).Gives n ↔ x.Gives n := by
  constructor
  · rintro ⟨b, m, h⟩
    obtain ⟨a, hx, -⟩ := map_eq_ok.1 h
    exact ⟨a, m, hx⟩
  · rintro ⟨a, m, h⟩
    exact ⟨f a, m, map_eq_ok.2 ⟨a, h, rfl⟩⟩

/-- A construction with a last step that cannot fail gives a result iff it does without. -/
theorem gives_bind_pure {x : Build α} {f : α → β} :
    (x >>= fun a => pure (f a)).Gives n ↔ x.Gives n := by
  constructor
  · rintro ⟨b, m, h⟩
    obtain ⟨a, l, ha, -⟩ := bind_eq_ok.1 h
    exact ⟨a, l, ha⟩
  · rintro ⟨a, l, ha⟩
    exact ⟨f a, l, bind_eq_ok.2 ⟨a, l, ha, rfl⟩⟩

/-- Two constructions after one another give a result iff both do, if it does not depend on the
result of the first one whether the second one does. -/
theorem gives_bind {x : Build α} {f : α → Build β} {P Q : Prop} (hx : x.Gives n ↔ P)
    (hf : ∀ a m, x n = .ok (a, m) → ((f a).Gives m ↔ Q)) : (x >>= f).Gives n ↔ P ∧ Q := by
  constructor
  · rintro ⟨b, m, h⟩
    obtain ⟨a, l, ha, hb⟩ := bind_eq_ok.1 h
    exact ⟨hx.1 ⟨a, l, ha⟩, (hf a l ha).1 ⟨b, m, hb⟩⟩
  · rintro ⟨hP, hQ⟩
    obtain ⟨a, l, ha⟩ := hx.2 hP
    obtain ⟨b, m, hb⟩ := (hf a l ha).2 hQ
    exact ⟨b, m, bind_eq_ok.2 ⟨a, l, ha, hb⟩⟩

/-- Two constructions after one another give a result if both do. -/
theorem Gives.bind {x : Build α} {f : α → Build β} (hx : x.Gives n)
    (hf : ∀ a m, x n = .ok (a, m) → (f a).Gives m) : (x >>= f).Gives n := by
  obtain ⟨a, l, ha⟩ := hx
  obtain ⟨b, m, hb⟩ := hf a l ha
  exact ⟨b, m, bind_eq_ok.2 ⟨a, l, ha, hb⟩⟩

end Build

/-! ## Joins -/

/-- A join key with a name is one. -/
theorem exists_joinKey {r : Relation} (hr : r.Keyed) {key : Option String}
    (hkey : key ∈ r.joinKeys) : ∃ name, joinKey r key = .ok name := by
  obtain ⟨name, rfl, hname⟩ := hr key hkey
  refine ⟨name, ?_⟩
  rw [joinKey, if_neg (by simpa using hname)]

/-- A relation whose target is declared can be joined. -/
theorem gives_joinRelation (hk : k.Keyed) (hc : c ∈ k.collections) {source : Alias}
    (h : Selection.targetOf k c name = .ok target) : (joinRelation k c source name).Gives n := by
  obtain ⟨r, hr, htarget⟩ := Selection.targetOf_eq_ok.1 h
  have hkeyed := hk c hc r (List.mem_of_find?_eq_some hr)
  have hfind : k.find r.target = .ok target := by rw [Catalog.find, htarget]
  have hkeys {key : Option String} (hkey : key ∈ r.joinKeys) (n : Alias) :
      (liftM (joinKey r key) : Build String).Gives n :=
    Build.gives_lift.2 (exists_joinKey hkeyed hkey)
  unfold joinRelation
  rw [hr]
  refine (Build.gives_lift.2 ⟨target, hfind⟩).bind fun _ _ _ => ?_
  refine Build.Gives.bind ⟨_, _, rfl⟩ fun a _ _ => ?_
  unfold Relation.joinKeys at hkeys
  cases htype : r.type with
  | manyToMany =>
      simp only [htype] at hkeys
      refine Build.Gives.bind ⟨_, _, rfl⟩ fun b _ _ => ?_
      refine (hkeys (by simp) _).bind fun _ _ _ => ?_
      refine (hkeys (by simp) _).bind fun _ _ _ => ?_
      exact (hkeys (by simp) _).bind fun _ _ _ => ⟨_, _, rfl⟩
  | oneToMany | manyToOne | oneToOne =>
      simp only [htype] at hkeys
      exact (hkeys (by simp) _).bind fun _ _ _ => ⟨_, _, rfl⟩

/-- A join leads to the rows of the collection that its relation names, and skips deleted rows if
that collection keeps them. -/
theorem exists_relation_of_joinRelation {source : Alias} {j : Join}
    (h : joinRelation k c source name n = .ok ((j, target), m)) :
    Selection.targetOf k c name = .ok target ∧ j.table = target.tableName ∧
      j.paranoid = target.paranoid := by
  unfold joinRelation at h
  cases hr : c.relation? name with
  | none =>
      rw [hr] at h
      cases h
  | some r =>
      rw [hr] at h
      obtain ⟨found, _, hfound, h⟩ := Build.bind_eq_ok.1 h
      have hfind := Catalog.find?_of_find (Build.lift_eq_ok.1 hfound).1
      obtain ⟨a, _, -, h⟩ := Build.bind_eq_ok.1 h
      -- whatever the keys, the last step is the same
      have hend : found = target ∧ j.table = found.tableName ∧ j.paranoid = found.paranoid := by
        cases htype : r.type with
        | manyToMany =>
            simp only [htype, Build.bind_eq_ok, Build.pure_eq_ok, Prod.mk.injEq] at h
            obtain ⟨_, _, -, _, _, -, _, _, -, _, _, -, _, _, -, ⟨rfl, rfl⟩, -⟩ := h
            exact ⟨rfl, rfl, rfl⟩
        | oneToMany | manyToOne | oneToOne =>
            simp only [htype, Build.bind_eq_ok, Build.pure_eq_ok, Prod.mk.injEq] at h
            obtain ⟨_, _, -, _, _, -, ⟨rfl, rfl⟩, -⟩ := h
            exact ⟨rfl, rfl, rfl⟩
      obtain ⟨rfl, htable, hparanoid⟩ := hend
      exact ⟨Selection.targetOf_eq_ok.2 ⟨r, hr, hfind⟩, htable, hparanoid⟩

end Sql

end Warden
