import Mathlib.Data.List.Forall2
import Warden.Proofs.Access.Pattern

/-! # The language of patterns

An allowlist is asked by rewriting its patterns at each relation of a path. What comes of it can be
said of one pattern and one path at once: the pattern **spells** the path, segment by segment with
stars for any of them (**`Allowlist.Spells`**), or it ends one segment earlier with the bare name of
the last relation, which **opens** all fields there (**`Allowlist.OpensTo`**). For paths without
stars of their own these are exactly the ways in which a pattern lets a path through
(**`covers_iff`**).

An allowlist is therefore no more than the set of its patterns (**`allowsPath_iff_spelled`**). -/

namespace Warden

namespace Allowlist

variable {segment name : String} {pattern path rest : List String}

/-! ## Patterns segment by segment -/

/-- The segment of a pattern is the name or a star. -/
def Stands (segment name : String) : Prop :=
  segment = name ∨ segment = wildcard

/-- The pattern is as long as the path, and each of its segments is that of the path or a star. -/
def Spells (pattern path : List String) : Prop :=
  List.Forall₂ Stands pattern path

/-- The pattern ends with the bare name of the path's last relation, one segment before the path
does, and each segment before it is that of the path or a star. -/
def OpensTo (pattern path : List String) : Prop :=
  ∃ front before relation field, pattern = front ++ [relation] ∧
    path = before ++ [relation, field] ∧ Spells front before

theorem segmentMatches_iff : segmentMatches segment name = true ↔ Stands segment name := by
  rw [segmentMatches, Bool.or_eq_true, beq_iff_eq, beq_iff_eq, Stands]

theorem spells_cons_cons :
    Spells (segment :: rest) (name :: path) ↔ Stands segment name ∧ Spells rest path :=
  List.forall₂_cons

/-- A path of one segment has no relation that a pattern could open. -/
theorem not_opensTo_singleton : ¬ OpensTo pattern [name] := by
  rintro ⟨front, before, relation, field, -, h, -⟩
  have hlength := congrArg List.length h
  simp at hlength

/-- A pattern of one segment opens the relation of that name in front of the field. -/
theorem opensTo_singleton : OpensTo [segment] path ↔ ∃ field, path = [segment, field] := by
  constructor
  · rintro ⟨front, before, relation, field, hpattern, rfl, hfront⟩
    cases front with
    | nil =>
        cases hfront
        obtain rfl := List.singleton_inj.1 hpattern
        exact ⟨field, rfl⟩
    | cons first front => simp at hpattern
  · rintro ⟨field, rfl⟩
    exact ⟨[], [], segment, field, rfl, rfl, .nil⟩

/-- A longer pattern opens a relation behind another one iff its first segment is that one or a star
and the others open the relation from there on. -/
theorem opensTo_cons_cons (hrest : rest ≠ []) :
    OpensTo (segment :: rest) (name :: path) ↔ Stands segment name ∧ OpensTo rest path := by
  constructor
  · rintro ⟨front, before, relation, field, hpattern, hpath, hfront⟩
    cases hfront with
    | nil => exact absurd (List.cons_eq_cons.1 hpattern).2 hrest
    | cons hfirst hfront =>
        obtain ⟨rfl, rfl⟩ := List.cons_eq_cons.1 hpattern
        obtain ⟨rfl, rfl⟩ := List.cons_eq_cons.1 hpath
        exact ⟨hfirst, _, _, relation, field, rfl, rfl, hfront⟩
  · rintro ⟨hfirst, front, before, relation, field, rfl, rfl, hfront⟩
    exact ⟨segment :: front, name :: before, relation, field, rfl, rfl, .cons hfirst hfront⟩

/-- No pattern without segments opens anything. -/
theorem not_opensTo_nil : ¬ OpensTo [] path := by
  rintro ⟨front, before, relation, field, h, -, -⟩
  simp at h

/-! ## What a pattern lets through -/

/-- A pattern matches a field iff it spells the path of the field alone. -/
theorem matchesField_iff : matchesField name pattern = true ↔ Spells pattern [name] := by
  match pattern with
  | [] => exact iff_of_false Bool.false_ne_true nofun
  | [segment] =>
      rw [spells_cons_cons, matchesField, segmentMatches_iff]
      exact (and_iff_left .nil).symm
  | segment :: next :: rest =>
      refine iff_of_false Bool.false_ne_true fun h => ?_
      have hlength := h.length_eq
      simp at hlength

/-- A star alone lets a path without stars through iff that is the path of a single field. -/
theorem covers_wildcard (hpath : wildcard ∉ path) :
    Covers [wildcard] path ↔ ∃ field, path = [field] := by
  constructor
  · intro h
    cases h with
    | field => exact ⟨_, rfl⟩
    | bare => exact absurd List.mem_cons_self hpath
  · rintro ⟨field, rfl⟩
    exact .field (segmentMatches_iff.2 (.inr rfl))

/-- **A pattern lets a path without stars through iff it spells it or opens its last relation.** -/
theorem covers_iff (hne : path ≠ []) (hpath : wildcard ∉ path) :
    Covers pattern path ↔ Spells pattern path ∨ OpensTo pattern path := by
  -- behind a relation another pattern applies, so the pattern varies in the induction
  induction path generalizing pattern with
  | nil => exact absurd rfl hne
  | cons name path ih =>
      have htail : wildcard ∉ path := fun h => hpath (List.mem_cons_of_mem _ h)
      by_cases hend : path = []
      · subst hend
        rw [covers_singleton, matchesField_iff, or_iff_left not_opensTo_singleton]
      · match pattern with
        | [] =>
            refine iff_of_false ?_ (not_or.2 ⟨nofun, not_opensTo_nil⟩)
            rw [covers_cons hend]
            rintro ⟨rest, hrest, -⟩
            cases hrest
        | [segment] =>
            have hspells : ¬ Spells [segment] (name :: path) := by
              rw [spells_cons_cons]
              rintro ⟨-, hnil⟩
              exact hend (List.forall₂_nil_left_iff.1 hnil)
            rw [covers_singleton_cons hend, covers_wildcard htail, or_iff_right hspells,
              opensTo_singleton, ← exists_and_left]
            refine exists_congr fun field => ?_
            rw [List.cons_eq_cons, eq_comm]
        | segment :: next :: rest =>
            have hrest : next :: rest ≠ [] := List.cons_ne_nil _ _
            rw [covers_cons_cons hrest hend, spells_cons_cons, opensTo_cons_cons hrest,
              ih hend htail, segmentMatches_iff, and_or_left]

/-! ## What an allowlist lets through -/

/-- An allowlist with more patterns allows more. -/
theorem allowsPath_mono {patterns others : List (List String)} (h : patterns ⊆ others)
    {path : String} (hpath : (⟨some patterns⟩ : Allowlist).allowsPath path = true) :
    (⟨some others⟩ : Allowlist).allowsPath path = true := by
  obtain ⟨pattern, hpattern, hcovers⟩ := allowsSegments_iff_covers.1 hpath
  exact allowsSegments_iff_covers.2 ⟨pattern, h hpattern, hcovers⟩

end Allowlist

/-- **The language of an allowlist.** A path without stars is allowed iff one of the patterns spells
it, segment by segment with stars for any, or ends one segment earlier with the bare name of its
last relation. So more patterns never allow less, and two lists of the same patterns, in any order
and however often each stands there, allow the same. -/
theorem allowsPath_iff_spelled (patterns : List (List String)) :
    (∀ path, wildcard ∉ Text.split '.' path →
      ((⟨some patterns⟩ : Allowlist).allowsPath path = true ↔
        ∃ pattern ∈ patterns, Allowlist.Spells pattern (Text.split '.' path) ∨
          Allowlist.OpensTo pattern (Text.split '.' path))) ∧
    (∀ others path, patterns ⊆ others →
      (⟨some patterns⟩ : Allowlist).allowsPath path = true →
        (⟨some others⟩ : Allowlist).allowsPath path = true) ∧
    ∀ others path, (∀ pattern, pattern ∈ patterns ↔ pattern ∈ others) →
      (⟨some patterns⟩ : Allowlist).allowsPath path =
        (⟨some others⟩ : Allowlist).allowsPath path := by
  refine ⟨fun path hpath => ?_, fun others path h => Allowlist.allowsPath_mono h,
    fun others path h => ?_⟩
  · rw [Allowlist.allowsPath, Allowlist.allowsSegments_iff_covers]
    simp only [Allowlist.covers_iff (Text.split_ne_nil '.' path) hpath]
  · rw [Bool.eq_iff_iff]
    exact ⟨Allowlist.allowsPath_mono fun pattern => (h pattern).1,
      Allowlist.allowsPath_mono fun pattern => (h pattern).2⟩

namespace Sample

/-- The titles of posts, and all direct fields of the authors of whatever belongs to a post. -/
def bylines : List (List String) :=
  [["title"], ["*", "author"]]

end Sample

/-- The name of a comment's author is allowed by the pattern that opens authors behind any relation,
also if that pattern stands first and again and others are added. -/
theorem allowsPath_iff_spelled_bylines :
    wildcard ∉ Text.split '.' "comments.author.name" ∧
    (⟨some Sample.bylines⟩ : Allowlist).allowsPath "comments.author.name" = true ∧
    Sample.bylines ⊆ ["*", "author"] :: ["tags"] :: Sample.bylines ∧
    (⟨some (["*", "author"] :: ["tags"] :: Sample.bylines)⟩ : Allowlist).allowsPath
      "comments.author.name" = true ∧
    (∀ pattern, pattern ∈ Sample.bylines ↔ pattern ∈ Sample.bylines.reverse ++ Sample.bylines) ∧
    (⟨some (Sample.bylines.reverse ++ Sample.bylines)⟩ : Allowlist).allowsPath
      "comments.author.name" = true := by
  have hpath : Text.split '.' "comments.author.name" = ["comments", "author", "name"] := by cbv
  have hstars : wildcard ∉ Text.split '.' "comments.author.name" := by
    rw [hpath]
    decide
  obtain ⟨hspelled, hmore, hsame⟩ := allowsPath_iff_spelled Sample.bylines
  have hallowed : (⟨some Sample.bylines⟩ : Allowlist).allowsPath "comments.author.name" = true := by
    refine (hspelled _ hstars).2 ⟨["*", "author"], by decide, .inr ?_⟩
    rw [hpath]
    exact ⟨["*"], ["comments"], "author", "name", rfl, rfl, .cons (.inr rfl) .nil⟩
  have hadded : Sample.bylines ⊆ ["*", "author"] :: ["tags"] :: Sample.bylines :=
    fun pattern h => List.mem_cons_of_mem _ (List.mem_cons_of_mem _ h)
  have hmembers (pattern : List String) :
      pattern ∈ Sample.bylines ↔ pattern ∈ Sample.bylines.reverse ++ Sample.bylines := by
    rw [List.mem_append, List.mem_reverse, or_self]
  exact ⟨hstars, hallowed, hadded, hmore _ _ hadded hallowed, hmembers,
    (hsame _ _ hmembers).symm.trans hallowed⟩

end Warden
