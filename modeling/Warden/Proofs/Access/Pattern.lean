import Warden.Proofs.Access.Allowlist
import Warden.Proofs.Outcome
import Warden.Proofs.Text.Path

/-! # What a pattern covers

An allowlist is asked segment by segment, and the patterns that apply behind a relation are made
anew at each step. **`Allowlist.Covers`** says of one pattern and one path, without any such step,
that the pattern lets the path through; an allowlist with patterns allows exactly the paths that one
of them covers (**`allowsSegments_iff_covers`**).

The allowlist of a list of texts has one pattern for each text that is not blank
(**`ofFields_texts`**). -/

namespace Warden.Allowlist

/-! ## Patterns and paths -/

/-- The pattern lets the path through. -/
inductive Covers : (pattern path : List String) → Prop where
  /-- Its last segment matches the field. -/
  | field {segment name : String} (h : segmentMatches segment name = true) :
    Covers [segment] [name]
  /-- It is the bare name of the relation, and a star matches the rest. -/
  | bare {relation : String} {path : List String} (h : Covers [wildcard] path) :
    Covers [relation] (relation :: path)
  /-- Its first segment matches the relation, and the other segments the rest. -/
  | behind {segment relation next : String} {rest path : List String}
      (h : segmentMatches segment relation = true) (hrest : Covers (next :: rest) path) :
    Covers (segment :: next :: rest) (relation :: path)

variable {pattern path : List String} {name : String}

/-- A path without segments is covered by no pattern. -/
theorem not_covers_nil : ¬ Covers pattern [] := nofun

/-- A pattern covers a path of one segment iff it matches it as a field. -/
theorem covers_singleton : Covers pattern [name] ↔ matchesField name pattern = true := by
  constructor
  · intro h
    cases h with
    | field h => exact h
    | bare h => cases h
    | behind _ h => cases h
  · intro h
    match pattern, h with
    | [segment], h => exact .field h

/-- A pattern covers a longer path iff what it says behind the relation covers the rest. -/
theorem covers_cons (hpath : path ≠ []) :
    Covers pattern (name :: path) ↔
      ∃ rest, behind? name pattern = some rest ∧ Covers rest path := by
  constructor
  · intro h
    cases h with
    | field => exact absurd rfl hpath
    | bare h => exact ⟨[wildcard], by simp [behind?], h⟩
    | @behind _ _ next rest _ h hrest => exact ⟨next :: rest, by simp [behind?, h], hrest⟩
  · rintro ⟨rest, hrest, h⟩
    match pattern, hrest with
    | [segment], hrest =>
        obtain ⟨hname, hrest⟩ := Option.ite_none_right_eq_some.1 hrest
        cases hrest
        rw [beq_iff_eq.1 hname]
        exact .bare h
    | segment :: next :: others, hrest =>
        obtain ⟨hsegment, hrest⟩ := Option.ite_none_right_eq_some.1 hrest
        cases hrest
        exact .behind hsegment h

/-- A pattern of one segment covers a longer path iff it is the bare name of its relation. -/
theorem covers_singleton_cons {segment : String} (hpath : path ≠ []) :
    Covers [segment] (name :: path) ↔ segment = name ∧ Covers [wildcard] path := by
  rw [covers_cons hpath]
  simp [behind?, and_assoc]

/-- A longer pattern covers a longer path iff their first segments match and the others cover. -/
theorem covers_cons_cons {segment : String} {rest : List String} (hrest : rest ≠ [])
    (hpath : path ≠ []) :
    Covers (segment :: rest) (name :: path) ↔
      segmentMatches segment name = true ∧ Covers rest path := by
  obtain ⟨next, others, rfl⟩ := List.exists_cons_of_ne_nil hrest
  rw [covers_cons hpath]
  simp [behind?, and_assoc]

/-- A pattern that says something behind a relation opens it. -/
theorem matchesRelation_of_behind? {rest : List String} (h : behind? name pattern = some rest) :
    matchesRelation name pattern = true := by
  match pattern, h with
  | [segment], h => exact (Option.ite_none_right_eq_some.1 h).1
  | segment :: next :: others, h => exact (Option.ite_none_right_eq_some.1 h).1

/-! ## Allowlists -/

/-- The patterns behind a relation are what the patterns say there. -/
theorem mem_behind {patterns : List (List String)} {rest : List String} :
    rest ∈ (patterns.filterMap (behind? name)).eraseDups ↔
      ∃ pattern ∈ patterns, behind? name pattern = some rest := by
  rw [List.mem_eraseDups, List.mem_filterMap]

/-- An allowlist with patterns allows exactly the paths that one of them covers. -/
theorem allowsSegments_iff_covers {patterns : List (List String)} :
    (⟨some patterns⟩ : Allowlist).allowsSegments path = true ↔
      ∃ pattern ∈ patterns, Covers pattern path := by
  -- behind a relation there are other patterns, so they vary in the induction
  induction path generalizing patterns with
  | nil => exact iff_of_false (by simp [allowsSegments]) fun ⟨_, _, h⟩ => not_covers_nil h
  | cons name path ih =>
      by_cases hpath : path = []
      · rw [hpath, allowsSegments_singleton, allowsField, List.any_eq_true]
        simp only [covers_singleton]
      · rw [allowsSegments_cons name hpath, Bool.and_eq_true, allowsRelation, forRelation, ih,
          List.any_eq_true]
        simp only [covers_cons hpath, mem_behind]
        constructor
        · rintro ⟨-, rest, ⟨pattern, hpattern, hrest⟩, h⟩
          exact ⟨pattern, hpattern, rest, hrest, h⟩
        · rintro ⟨pattern, hpattern, rest, hrest, h⟩
          exact ⟨⟨pattern, hpattern, matchesRelation_of_behind? hrest⟩, rest,
            ⟨pattern, hpattern, hrest⟩, h⟩

/-! ## The allowlist of a list of texts -/

/-- The text is not blank. -/
def counts (field : String) : Bool :=
  !(Text.trim field).isEmpty

/-- Every text that is not blank is a pattern. -/
theorem patternsOf_texts (fields : List String) :
    patternsOf (fields.map .text) = .ok ((fields.filter counts).map segments) := by
  induction fields with
  | nil => rfl
  | cons field fields ih =>
      rw [List.map_cons, patternsOf, ih, List.filter_cons]
      by_cases hempty : field = ""
      · subst hempty
        rfl
      · have htruthy : (Value.text field).truthy = true := by
          simpa [Value.truthy] using hempty
        rw [if_pos htruthy]
        by_cases hblank : (Text.trim field).isEmpty = true
        · simp [counts, hblank]
        · simp [counts, hblank]

/-- A list of texts is an allowlist with a pattern for every text that is not blank. -/
theorem ofFields_texts (fields : List String) :
    ofFields (.list (fields.map .text)) =
      .ok ⟨some ((fields.filter counts).map segments)⟩ := by
  show (do return (⟨some (← patternsOf (fields.map .text))⟩ : Allowlist)) = _
  rw [patternsOf_texts]
  rfl

end Warden.Allowlist
