import Warden.Permission.Snapshot
import Mathlib.Data.List.Pairwise
import Mathlib.Data.List.Perm.Basic

/-! # Keys of rules

The role, the collection and the action of a rule are its key. A list of rules with distinct keys
(**`KeysDistinct`**) is published as it is, and whatever the order of its rules, the same one is
found under a key. Of rules with one key the first is published, so what is found under a key stays
the same (`Snapshot.find?_firstOfEach`). -/

namespace Warden

namespace Permission

/-- A rule is for a key iff the key is its own. -/
theorem isFor_iff {p : Permission} {role : Uuid} {collection : String} {action : Action} :
    p.isFor role collection action = true ↔
      p.role = role ∧ p.collection = collection ∧ p.action = action := by
  simp [isFor, and_assoc]

theorem sameKey_iff {p q : Permission} :
    p.sameKey q = true ↔
      q.role = p.role ∧ q.collection = p.collection ∧ q.action = p.action :=
  isFor_iff

theorem sameKey_comm (p q : Permission) : p.sameKey q = q.sameKey p := by
  rw [Bool.eq_iff_iff, sameKey_iff, sameKey_iff]
  constructor
  · rintro ⟨hrole, hcollection, haction⟩
    exact ⟨hrole.symm, hcollection.symm, haction.symm⟩
  · rintro ⟨hrole, hcollection, haction⟩
    exact ⟨hrole.symm, hcollection.symm, haction.symm⟩

/-- Two rules for one key have the same key. -/
theorem sameKey_of_isFor {p q : Permission} {role : Uuid} {collection : String} {action : Action}
    (hp : p.isFor role collection action = true) (hq : q.isFor role collection action = true) :
    p.sameKey q = true := by
  obtain ⟨rfl, rfl, rfl⟩ := isFor_iff.1 hp
  exact hq

end Permission

/-- No two of the rules have the same role, collection and action. -/
def KeysDistinct (ps : List Permission) : Prop :=
  ps.Pairwise fun p q => p.sameKey q = false

namespace KeysDistinct

variable {ps qs : List Permission}

theorem perm (h : KeysDistinct ps) (hp : ps.Perm qs) : KeysDistinct qs :=
  List.Pairwise.perm h hp fun {p q} hpq => (Permission.sameKey_comm q p).trans hpq

/-- What changes no key keeps keys distinct. -/
theorem map {f : Permission → Permission} (h : KeysDistinct ps)
    (hf : ∀ p q, (f p).sameKey (f q) = p.sameKey q) : KeysDistinct (ps.map f) :=
  List.pairwise_map.2 (h.imp fun {p q} hpq => (hf p q).trans hpq)

/-- A rule under a new key joins rules with distinct keys. -/
theorem append_singleton {p : Permission} (h : KeysDistinct ps)
    (hp : ∀ q ∈ ps, q.isFor p.role p.collection p.action = false) : KeysDistinct (ps ++ [p]) := by
  refine List.pairwise_append.2 ⟨h, List.pairwise_singleton _ p, fun q hq r hr => ?_⟩
  rw [List.mem_singleton.1 hr, Permission.sameKey_comm]
  exact hp q hq

/-- The rule found under a key is the one that is for it. -/
theorem find?_eq_some_iff (h : KeysDistinct ps) {role : Uuid} {collection : String}
    {action : Action} {p : Permission} :
    ps.find? (·.isFor role collection action) = some p ↔
      p ∈ ps ∧ p.isFor role collection action = true := by
  constructor
  · intro hp
    have hfor := List.find?_some hp
    exact ⟨List.mem_of_find?_eq_some hp, hfor⟩
  · rintro ⟨hmem, hp⟩
    induction ps with
    | nil => cases hmem
    | cons q ps ih =>
        obtain ⟨hq, hps⟩ := List.pairwise_cons.1 h
        rw [List.find?_cons]
        cases hqfor : q.isFor role collection action with
        | true =>
            rcases List.mem_cons.1 hmem with rfl | hmem
            · rfl
            · have hsame := hq p hmem
              rw [Permission.sameKey_of_isFor hqfor hp] at hsame
              cases hsame
        | false =>
            rcases List.mem_cons.1 hmem with rfl | hmem
            · rw [hp] at hqfor
              cases hqfor
            · exact ih hps hmem

/-- In whatever order rules with distinct keys come, the same one is found under a key. -/
theorem find?_perm (h : KeysDistinct ps) (hperm : ps.Perm qs) (role : Uuid) (collection : String)
    (action : Action) :
    ps.find? (·.isFor role collection action) = qs.find? (·.isFor role collection action) := by
  refine Option.ext fun p => ?_
  rw [h.find?_eq_some_iff, (h.perm hperm).find?_eq_some_iff, hperm.mem_iff]

/-- Rules with distinct keys are published as they are: none is left out. -/
theorem firstOfEach_eq (h : KeysDistinct ps) : Snapshot.firstOfEach ps = ps := by
  -- the rules kept so far join those still to come
  suffices hfold : ∀ kept, KeysDistinct (kept ++ ps) →
      ps.foldl (fun kept p => if kept.any p.sameKey then kept else kept ++ [p]) kept =
        kept ++ ps from hfold [] h
  clear h
  induction ps with
  | nil => exact fun kept _ => (List.append_nil kept).symm
  | cons p ps ih =>
      intro kept hdistinct
      have hnew : kept.any p.sameKey = false := by
        rw [List.any_eq_false]
        intro q hq
        rw [Permission.sameKey_comm,
          (List.pairwise_append.1 hdistinct).2.2 q hq p List.mem_cons_self]
        simp
      rw [List.foldl_cons, if_neg (by simp [hnew]), ih (kept ++ [p]), List.append_assoc,
        List.singleton_append]
      rwa [List.append_assoc, List.singleton_append]

end KeysDistinct

/-! ## Published rules -/

/-- Under every key the same rule is found before and after the ones behind another rule of their
key are left out. -/
theorem Snapshot.find?_firstOfEach (ps : List Permission) (role : Uuid) (collection : String)
    (action : Action) :
    (firstOfEach ps).find? (·.isFor role collection action) =
      ps.find? (·.isFor role collection action) := by
  -- the rules kept so far come before those still to come
  suffices hfold : ∀ kept : List Permission,
      (ps.foldl (fun kept p => if kept.any p.sameKey then kept else kept ++ [p]) kept).find?
          (·.isFor role collection action) =
        (kept ++ ps).find? (·.isFor role collection action) from hfold []
  induction ps with
  | nil => exact fun kept => by rw [List.foldl_nil, List.append_nil]
  | cons p ps ih =>
      intro kept
      rw [List.foldl_cons, ih]
      cases hknown : kept.any p.sameKey with
      | false => rw [if_neg Bool.false_ne_true, List.append_assoc, List.singleton_append]
      | true =>
          rw [if_pos rfl, List.find?_append, List.find?_append, List.find?_cons]
          cases hp : p.isFor role collection action with
          | false => rfl
          | true =>
              -- a rule that is left out is not the first one for the key
              obtain ⟨q, hq, hsame⟩ := List.any_eq_true.1 hknown
              obtain ⟨rfl, rfl, rfl⟩ := Permission.isFor_iff.1 hp
              have hfound : (kept.find? (·.isFor p.role p.collection p.action)).isSome = true :=
                List.find?_isSome.2 ⟨q, hq, hsame⟩
              obtain ⟨first, hfirst⟩ := Option.isSome_iff_exists.1 hfound
              rw [hfirst, Option.some_or, Option.some_or]

/-- A rule that is alone for its key is found under it once it is published. -/
theorem Snapshot.find?_publish {ps : List Permission} {p : Permission} (s : Snapshot) (hp : p ∈ ps)
    (halone : ∀ q ∈ ps, p.sameKey q = true → q = p) :
    (s.publish ps).find? p.role p.collection p.action = some p := by
  rw [find?, publish, find?_firstOfEach]
  have hfound : (ps.find? (·.isFor p.role p.collection p.action)).isSome = true :=
    List.find?_isSome.2 ⟨p, hp, Permission.isFor_iff.2 ⟨rfl, rfl, rfl⟩⟩
  obtain ⟨q, hq⟩ := Option.isSome_iff_exists.1 hfound
  rw [hq, halone q (List.mem_of_find?_eq_some hq) (List.find?_some hq)]

end Warden
