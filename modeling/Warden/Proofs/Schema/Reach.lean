import Warden.Proofs.Outcome
import Warden.Proofs.Text.Path
import Warden.Schema.Collection

/-! # Where paths lead

The names of a path lead through relations from one collection to another (**`Catalog.reached?`**),
one after another. A longer path is followed from where its beginning leads
(`followFrom_append_eq_ok`), so the field at its end is the one that the rest of the path has at its
end when it is looked up from there (**`fieldType_append_eq_ok`**). -/

namespace Warden.Catalog

variable {k : Catalog} {collection target : String} {path rest : List String}

/-- The name of the collection that the relations of a path lead to. -/
def reached? (k : Catalog) : (collection : String) → List String → Option String
  | collection, [] => some collection
  | collection, segment :: rest =>
    (k.relation? collection segment).bind fun relation => k.reached? relation.target rest

/-- A path leads to where its rest leads from where its beginning leads. -/
theorem reached?_append :
    k.reached? collection (path ++ rest) =
      (k.reached? collection path).bind fun target => k.reached? target rest := by
  induction path generalizing collection with
  | nil => rfl
  | cons segment path ih =>
      rw [List.cons_append, reached?, reached?, Option.bind_assoc]
      exact congrArg _ (funext fun relation => ih)

/-- The collection reached by the relations of a path from the one with a name. -/
def followFrom (k : Catalog) (collection : String) (path : List String) : Outcome Collection := do
  let c ← k.find collection
  k.follow c path

theorem followFrom_eq_ok {c : Collection} :
    k.followFrom collection path = .ok c ↔
      ∃ d, k.find? collection = some d ∧ k.follow d path = .ok c := by
  rw [followFrom, find]
  cases k.find? collection with
  | none =>
      refine iff_of_false (Outcome.refuse_ne_ok _ _) ?_
      rintro ⟨_, ⟨⟩, -⟩
  | some d =>
      rw [Outcome.bind_eq_ok]
      simp only [Except.ok.injEq, Option.some.injEq]

/-- A path is followed by its first relation and from the target of that one on. -/
theorem followFrom_cons_eq_ok {segment : String} {c : Collection} :
    k.followFrom collection (segment :: rest) = .ok c ↔
      ∃ relation, k.relation? collection segment = some relation ∧
        k.followFrom relation.target rest = .ok c := by
  rw [followFrom_eq_ok]
  simp only [relation?, Option.bind_eq_some_iff, followFrom_eq_ok]
  constructor
  · rintro ⟨d, hd, hfollow⟩
    rw [follow] at hfollow
    split at hfollow
    case h_1 => exact absurd hfollow (Outcome.refuse_ne_ok _ _)
    case h_2 relation hrelation =>
      split at hfollow
      case h_1 => exact absurd hfollow (Outcome.refuse_ne_ok _ _)
      case h_2 target htarget => exact ⟨relation, ⟨d, hd, hrelation⟩, target, htarget, hfollow⟩
  · rintro ⟨relation, ⟨d, hd, hrelation⟩, target, htarget, hfollow⟩
    refine ⟨d, hd, ?_⟩
    simp only [follow, hrelation, htarget]
    exact hfollow

/-- A longer path is followed from where its beginning leads. -/
theorem followFrom_append_eq_ok (h : k.reached? collection path = some target) {c : Collection} :
    k.followFrom collection (path ++ rest) = .ok c ↔ k.followFrom target rest = .ok c := by
  induction path generalizing collection with
  | nil =>
      obtain rfl := Option.some.inj h
      rfl
  | cons segment path ih =>
      obtain ⟨relation, hrelation, h⟩ := Option.bind_eq_some_iff.1 h
      rw [List.cons_append, followFrom_cons_eq_ok, hrelation]
      constructor
      · rintro ⟨_, hsome, hfollow⟩
        obtain rfl := Option.some.inj hsome
        exact (ih h).1 hfollow
      · intro hfollow
        exact ⟨relation, rfl, (ih h).2 hfollow⟩

/-- The field at the end of a path belongs to the collection that the path leads to before it. -/
theorem fieldType_eq_ok {path : String} {type : FieldType} :
    k.fieldType collection path = .ok type ↔
      ∃ c, k.followFrom collection (Text.split '.' path).dropLast = .ok c ∧
        ∃ f, c.field? ((Text.split '.' path).getLast?.getD "") = some f ∧ f.type = type := by
  rw [fieldType, followFrom, Outcome.bind_eq_ok]
  constructor
  · rintro ⟨c, hfind, h⟩
    obtain ⟨d, hfollow, h⟩ := Outcome.bind_eq_ok.1 h
    refine ⟨d, Outcome.bind_eq_ok.2 ⟨c, hfind, hfollow⟩, ?_⟩
    dsimp only at h
    split at h
    case h_1 f hf => exact ⟨f, hf, Except.ok.inj h⟩
    case h_2 =>
      split at h
      · exact absurd h (Outcome.refuse_ne_ok _ _)
      · exact absurd h (Outcome.refuse_ne_ok _ _)
  · rintro ⟨d, hfollow, f, hf, rfl⟩
    obtain ⟨c, hfind, hfollow⟩ := Outcome.bind_eq_ok.1 hfollow
    refine ⟨c, hfind, Outcome.bind_eq_ok.2 ⟨d, hfollow, ?_⟩⟩
    simp only [hf]
    rfl

/-- **The field at the end of a longer path is looked up from where its beginning leads.** -/
theorem fieldType_append_eq_ok {way : String}
    (h : k.reached? collection (Text.split '.' way) = some target) (path : String)
    {type : FieldType} :
    k.fieldType collection (way ++ "." ++ path) = .ok type ↔
      k.fieldType target path = .ok type := by
  have hne : Text.split '.' path ≠ [] := by
    rw [Text.split]
    simpa using Text.splitChars_ne_nil '.' path.toList
  rw [fieldType_eq_ok, fieldType_eq_ok, Text.split_append_dot, List.dropLast_append_of_ne_nil hne,
    List.getLast?_append, Option.or_of_isSome (List.getLast?_isSome.2 hne)]
  exact exists_congr fun c => and_congr_left fun _ => followFrom_append_eq_ok h

end Warden.Catalog
