import Warden.Proofs.Access.Pattern
import Warden.Proofs.Query.Confinement

/-! # Fields and patterns are one language

A list of fields is expanded against the collections: a star becomes all fields or all relations,
a bare relation all fields behind it, and what is said about one relation in several places is
gathered. An allowlist reads the same texts as patterns and never looks at a collection. Both agree:
a column is in the expanded selection iff its path is allowed (**`mem_expand_iff_allowsPath`**).

* **`Selection.Contributes`** lists what one path can add, **`Selection.Expands`** what a selection
  of paths consists of; the two recursions meet in `Allowlist.Covers`, the patterns' own reading of
  a path (`mem_paths_ofPaths`).
* **`Selection.Unrepeated`** says that nothing is listed twice. -/

namespace Warden

open Allowlist (Covers)

/-! ## Names and paths -/

/-- The name can stand in a path and is nothing else there. -/
structure PlainName (name : String) : Prop where
  /-- It is not the star. -/
  notWildcard : name ≠ wildcard
  /-- It is a single segment. -/
  undotted : '.' ∉ name.toList
  /-- It has no blanks around it. -/
  trimmed : Text.trim name = name

/-- No name of the collection is read as anything else in a path. -/
structure Collection.PlainNames (c : Collection) : Prop where
  /-- Fields have plain names. -/
  fields : ∀ name, c.hasField name = true → PlainName name
  /-- Relations have plain names. -/
  relations : ∀ name, c.hasRelation name = true → PlainName name
  /-- No name is that of a field and of a relation. -/
  apart : ∀ name, c.hasField name = true → c.hasRelation name = false

/-- All collections have plain names. -/
def Catalog.PlainNames (k : Catalog) : Prop :=
  ∀ c ∈ k.collections, c.PlainNames

/-- The path leads through relations to a field. -/
inductive Catalog.ColumnPath (k : Catalog) : Collection → List String → Prop where
  /-- A field of the collection. -/
  | field {c : Collection} {name : String} (h : c.hasField name = true) : ColumnPath k c [name]
  /-- A path from the target of a relation on. -/
  | behind {c target : Collection} {name : String} {relation : Relation} {path : List String}
      (hrelation : c.relation? name = some relation)
      (htarget : k.find? relation.target = some target) (h : ColumnPath k target path) :
    ColumnPath k c (name :: path)

variable {k : Catalog} {c target : Collection} {name : String} {path : List String}

theorem Collection.mem_fieldNames : name ∈ c.fieldNames ↔ c.hasField name = true := by
  simp [fieldNames, hasField, field?]

theorem Collection.exists_relation_name :
    (∃ r ∈ c.relations, r.name = name) ↔ c.hasRelation name = true := by
  simp [hasRelation, relation?]

instance (name : String) : Decidable (PlainName name) :=
  decidable_of_iff (name ≠ wildcard ∧ '.' ∉ name.toList ∧ Text.trim name = name)
    ⟨fun h => ⟨h.1, h.2.1, h.2.2⟩, fun h => ⟨h.notWildcard, h.undotted, h.trimmed⟩⟩

/-- The names of a collection are plain if its lists of names are. -/
theorem Collection.plainNames_of (hfields : ∀ name ∈ c.fieldNames, PlainName name)
    (hrelations : ∀ r ∈ c.relations, PlainName r.name)
    (hapart : ∀ name ∈ c.fieldNames, c.hasRelation name = false) : c.PlainNames where
  fields name hname := hfields name (mem_fieldNames.2 hname)
  relations name hname := by
    obtain ⟨r, hr, rfl⟩ := exists_relation_name.2 hname
    exact hrelations r hr
  apart name hname := hapart name (mem_fieldNames.2 hname)

/-- The target of a relation is the collection that it names. -/
theorem Selection.targetOf_eq_ok :
    targetOf k c name = .ok target ↔
      ∃ r, c.relation? name = some r ∧ k.find? r.target = some target := by
  rw [targetOf]
  constructor
  · intro h
    split at h
    case h_1 found hfound =>
      cases h
      exact Option.bind_eq_some_iff.1 hfound
    case h_2 => exact absurd h (Outcome.refuse_ne_ok _ _)
  · rintro ⟨r, hr, htarget⟩
    simp only [hr, Option.bind_some, htarget]

theorem Selection.mem_collections_of_targetOf (h : targetOf k c name = .ok target) :
    target ∈ k.collections := by
  obtain ⟨r, -, htarget⟩ := targetOf_eq_ok.1 h
  exact List.mem_of_find?_eq_some htarget

namespace Catalog

theorem columnPath_singleton : k.ColumnPath c [name] ↔ c.hasField name = true := by
  constructor
  · intro h
    cases h with
    | field h => exact h
    | behind _ _ h => cases h
  · exact .field

theorem columnPath_cons (hpath : path ≠ []) :
    k.ColumnPath c (name :: path) ↔
      ∃ target, Selection.targetOf k c name = .ok target ∧ k.ColumnPath target path := by
  constructor
  · intro h
    cases h with
    | field => exact absurd rfl hpath
    | behind hrelation htarget h =>
        exact ⟨_, Selection.targetOf_eq_ok.2 ⟨_, hrelation, htarget⟩, h⟩
  · rintro ⟨target, htarget, h⟩
    obtain ⟨r, hr, htarget⟩ := Selection.targetOf_eq_ok.1 htarget
    exact .behind hr htarget h

/-- A path through collections with plain names is what its text is cut into. -/
theorem ColumnPath.split_join (hk : k.PlainNames) (hc : c ∈ k.collections)
    (h : k.ColumnPath c path) : Text.split '.' (Text.join "." path) = path := by
  have hplain : path ≠ [] ∧ ∀ segment ∈ path, '.' ∉ segment.toList := by
    induction h with
    | field h =>
        refine ⟨List.cons_ne_nil _ _, ?_⟩
        rintro segment hsegment
        rw [List.mem_singleton.1 hsegment]
        exact ((hk _ hc).fields _ h).undotted
    | behind hrelation htarget _ ih =>
        have hname := ((hk _ hc).relations _ (Option.isSome_of_eq_some hrelation)).undotted
        obtain ⟨-, hrest⟩ := ih (List.mem_of_find?_eq_some htarget)
        exact ⟨List.cons_ne_nil _ _, List.forall_mem_cons.2 ⟨hname, hrest⟩⟩
  exact Text.split_join hplain.1 hplain.2

end Catalog

namespace Selection

/-! ## What a path adds -/

/-- The path adds the contribution. -/
inductive Contributes (c : Collection) : List String → Contribution → Prop where
  /-- A path without segments adds nothing. -/
  | none : Contributes c [] ⟨[], []⟩
  /-- A star adds all fields. -/
  | fields : Contributes c [wildcard] ⟨c.fieldNames, []⟩
  /-- A star before other segments adds these behind all relations. -/
  | relations {rest : List String} (hrest : rest ≠ []) :
    Contributes c (wildcard :: rest) ⟨[], c.relations.map fun r => (r.name, rest)⟩
  /-- A bare relation adds all fields behind it. -/
  | bare {name : String} (h : c.hasRelation name = true) :
    Contributes c [name] ⟨[], [(name, [wildcard])]⟩
  /-- A relation before other segments adds these behind it. -/
  | behind {name : String} {rest : List String} (h : c.hasRelation name = true)
      (hrest : rest ≠ []) : Contributes c (name :: rest) ⟨[], [(name, rest)]⟩
  /-- A field adds itself. -/
  | field {name : String} (h : c.hasField name = true) : Contributes c [name] ⟨[name], []⟩

theorem contributes_of_contribution {part : Contribution} (h : contribution c path = .ok part) :
    Contributes c path part := by
  cases path with
  | nil =>
      cases h
      exact .none
  | cons segment rest =>
      rw [contribution] at h
      split at h
      case isTrue hstar =>
        subst hstar
        split at h
        case isTrue hrest =>
          cases h
          rw [List.isEmpty_iff.1 hrest]
          exact .fields
        case isFalse hrest =>
          cases h
          exact .relations (mt List.isEmpty_iff.2 hrest)
      case isFalse =>
        split at h
        case isTrue hrelation =>
          split at h
          case isTrue hrest =>
            cases h
            rw [List.isEmpty_iff.1 hrest]
            exact .bare hrelation
          case isFalse hrest =>
            cases h
            exact .behind hrelation (mt List.isEmpty_iff.2 hrest)
        case isFalse =>
          split at h
          case isTrue hfield =>
            split at h
            case isTrue hrest =>
              cases h
              rw [List.isEmpty_iff.1 hrest]
              exact .field hfield
            case isFalse => exact absurd h (Outcome.refuse_ne_ok _ _)
          case isFalse => exact absurd h (Outcome.refuse_ne_ok _ _)

/-- The fuel is enough for the path: it is more than the path's length, or anything for a star. -/
def Within (fuel : Nat) (path : List String) : Prop :=
  path.length < fuel ∨ path = [wildcard] ∧ 0 < fuel

theorem Within.tail {fuel : Nat} {segment : String} {rest : List String}
    (h : Within (fuel + 1) (segment :: rest)) (hrest : rest ≠ []) : Within fuel rest := by
  rcases h with hlength | ⟨hstar, -⟩
  · exact .inl (Nat.lt_of_succ_lt_succ hlength)
  · exact absurd (List.cons_eq_cons.1 hstar).2 hrest

namespace Contributes

variable {part : Contribution} {rest tail : List String}

/-- Only fields are added as columns. -/
theorem hasField (h : Contributes c path part) (hname : name ∈ part.columns) :
    c.hasField name = true := by
  cases h with
  | fields => exact Collection.mem_fieldNames.1 hname
  | field h => exact List.mem_singleton.1 hname ▸ h
  | none | relations | bare | behind => cases hname

/-- Paths are added behind relations only. -/
theorem hasRelation (h : Contributes c path part) (hrest : (name, rest) ∈ part.nested) :
    c.hasRelation name = true := by
  cases h with
  | relations =>
      obtain ⟨r, hr, heq⟩ := List.mem_map.1 hrest
      exact Collection.exists_relation_name.1 ⟨r, hr, (Prod.mk.inj heq).1⟩
  | bare h | behind h =>
      cases List.mem_singleton.1 hrest
      exact h
  | none | fields | field => cases hrest

variable (hc : c.PlainNames)

include hc

/-- The columns that a path adds are the fields that it covers as a pattern. -/
theorem mem_columns_iff (h : Contributes c path part) :
    name ∈ part.columns ↔ c.hasField name = true ∧ Covers (path.map Text.trim) [name] := by
  rw [Allowlist.covers_singleton]
  cases h with
  | none => simp [Allowlist.matchesField]
  | fields =>
      have hstar : Allowlist.matchesField name ([wildcard].map Text.trim) = true :=
        Bool.or_eq_true_iff.2 (.inr rfl)
      rw [Collection.mem_fieldNames, hstar]
      simp
  | relations hrest | behind _ hrest =>
      obtain ⟨next, others, rfl⟩ := List.exists_cons_of_ne_nil hrest
      simp [Allowlist.matchesField]
  | @bare relation hrelation =>
      -- the bare name of a relation matches no field
      have hplain := hc.relations relation hrelation
      refine iff_of_false List.not_mem_nil ?_
      rintro ⟨hname, hmatches⟩
      rw [List.map_singleton, hplain.trimmed] at hmatches
      rcases Bool.or_eq_true_iff.1 hmatches with heq | hstar
      · obtain rfl := beq_iff_eq.1 heq
        rw [hc.apart _ hname] at hrelation
        cases hrelation
      · exact hplain.notWildcard (beq_iff_eq.1 hstar)
  | @field field hfield =>
      have hplain := hc.fields field hfield
      rw [List.map_singleton, hplain.trimmed]
      simp [Allowlist.matchesField, Allowlist.segmentMatches, hplain.notWildcard]
      constructor
      · rintro rfl
        exact ⟨hfield, rfl⟩
      · exact fun h => h.2.symm

/-- The paths that a path adds behind a relation cover there what it covers as a pattern. -/
theorem exists_mem_nested_iff (h : Contributes c path part) (htail : tail ≠ []) :
    (∃ rest, (name, rest) ∈ part.nested ∧ Covers (rest.map Text.trim) tail) ↔
      c.hasRelation name = true ∧ Covers (path.map Text.trim) (name :: tail) := by
  cases h with
  | none => simp [Allowlist.covers_cons htail, Allowlist.behind?]
  | fields =>
      -- a star in the last place opens no relation
      rw [List.map_singleton, Allowlist.covers_singleton_cons htail]
      constructor
      · rintro ⟨rest, hrest, -⟩
        cases hrest
      · rintro ⟨hname, hstar, -⟩
        exact absurd hstar.symm (hc.relations name hname).notWildcard
  | @relations rest hrest =>
      have hstar : Allowlist.segmentMatches (Text.trim wildcard) name = true :=
        Bool.or_eq_true_iff.2 (.inr rfl)
      rw [List.map_cons, Allowlist.covers_cons_cons (mt List.map_eq_nil_iff.1 hrest) htail,
        and_iff_right hstar, ← Collection.exists_relation_name]
      constructor
      · rintro ⟨_, hmem, hcovers⟩
        obtain ⟨r, hr, heq⟩ := List.mem_map.1 hmem
        cases heq
        exact ⟨⟨r, hr, rfl⟩, hcovers⟩
      · rintro ⟨⟨r, hr, rfl⟩, hcovers⟩
        exact ⟨rest, List.mem_map.2 ⟨r, hr, rfl⟩, hcovers⟩
  | @bare relation hrelation =>
      rw [List.map_singleton, (hc.relations relation hrelation).trimmed,
        Allowlist.covers_singleton_cons htail]
      constructor
      · rintro ⟨_, hmem, hcovers⟩
        cases List.mem_singleton.1 hmem
        exact ⟨hrelation, rfl, hcovers⟩
      · rintro ⟨-, rfl, hcovers⟩
        exact ⟨[wildcard], List.mem_singleton.2 rfl, hcovers⟩
  | @behind relation rest hrelation hrest =>
      have hplain := hc.relations relation hrelation
      rw [List.map_cons, hplain.trimmed,
        Allowlist.covers_cons_cons (mt List.map_eq_nil_iff.1 hrest) htail]
      constructor
      · rintro ⟨_, hmem, hcovers⟩
        cases List.mem_singleton.1 hmem
        exact ⟨hrelation, Bool.or_eq_true_iff.2 (.inl (beq_self_eq_true _)), hcovers⟩
      · rintro ⟨-, hmatches, hcovers⟩
        have hstar : (relation == wildcard) = false := beq_eq_false_iff_ne.2 hplain.notWildcard
        rw [Allowlist.segmentMatches, hstar, Bool.or_false] at hmatches
        exact ⟨rest, List.mem_singleton.2 (by rw [beq_iff_eq.1 hmatches]), hcovers⟩
  | @field field hfield =>
      -- the name of a field opens no relation
      rw [List.map_singleton, (hc.fields field hfield).trimmed,
        Allowlist.covers_singleton_cons htail]
      constructor
      · rintro ⟨rest, hrest, -⟩
        cases hrest
      · rintro ⟨hname, rfl, -⟩
        rw [hc.apart _ hfield] at hname
        cases hname

/-- What a path adds behind a relation is within a depth that is smaller by one. -/
theorem within (h : Contributes c path part) {fuel : Nat} (hpath : Within (fuel + 1) path)
    (hrest : (name, rest) ∈ part.nested) : Within fuel rest := by
  cases h with
  | none | fields | field => cases hrest
  | relations hne =>
      obtain ⟨r, hr, heq⟩ := List.mem_map.1 hrest
      cases heq
      exact hpath.tail hne
  | bare hrelation =>
      cases List.mem_singleton.1 hrest
      rcases hpath with hlength | ⟨hstar, -⟩
      · exact .inr ⟨rfl, Nat.lt_of_succ_lt_succ hlength⟩
      · exact absurd (List.singleton_inj.1 hstar) (hc.relations _ hrelation).notWildcard
  | behind _ hne =>
      cases List.mem_singleton.1 hrest
      exact hpath.tail hne

end Contributes

/-! ## What a selection of paths consists of -/

/-- The paths under a name are those that were given with it. -/
theorem getD_find?_gather (nested : List (String × List String)) (name : String) :
    ((gather nested).find? name).getD [] =
      (nested.filter fun entry => entry.1 = name).map (·.2) := by
  suffices hfold : ∀ groups : Named (List (List String)),
      ((nested.foldl (fun groups first =>
        groups.insert first.1 ((groups.find? first.1).getD [] ++ [first.2])) groups).find?
          name).getD [] =
        (groups.find? name).getD [] ++ (nested.filter fun entry => entry.1 = name).map (·.2) from
    hfold []
  induction nested with
  | nil => exact fun groups => (List.append_nil _).symm
  | cons first nested ih =>
      intro groups
      rw [List.foldl_cons, ih]
      by_cases hname : first.1 = name
      · rw [List.filter_cons_of_pos (by simpa using hname), hname, Named.find?_insert_self]
        simp
      · rw [List.filter_cons_of_neg (by simpa using hname),
          Named.find?_insert_of_ne _ _ (Ne.symm hname)]

/-- No name is gathered twice. -/
theorem nodup_names_gather (nested : List (String × List String)) :
    (gather nested).names.Nodup := by
  suffices hfold : ∀ groups : Named (List (List String)), groups.names.Nodup →
      (nested.foldl (fun groups first => groups.insert first.1
        ((groups.find? first.1).getD [] ++ [first.2])) groups).names.Nodup from
    hfold [] List.nodup_nil
  induction nested with
  | nil => exact fun groups h => h
  | cons first nested ih => exact fun groups h => ih _ (Named.nodup_names_insert h _ _)

/-- A path is in the group under a name iff it was given with it. -/
theorem mem_group_iff {nested : List (String × List String)} {group : List (List String)}
    (h : (name, group) ∈ gather nested) : path ∈ group ↔ (name, path) ∈ nested := by
  have hgroup := getD_find?_gather nested name
  rw [Named.find?_of_mem (nodup_names_gather nested) h, Option.getD_some] at hgroup
  rw [hgroup]
  simp

/-- There is a group under every name that was given. -/
theorem exists_group {nested : List (String × List String)} (h : (name, path) ∈ nested) :
    ∃ group, (name, group) ∈ gather nested := by
  have hgroup := getD_find?_gather nested name
  have hmem : path ∈ (nested.filter fun entry => entry.1 = name).map (·.2) := by simpa using h
  cases hfound : (gather nested).find? name with
  | some group => exact ⟨group, Named.mem_of_find? hfound⟩
  | none =>
      rw [← hgroup, hfound] at hmem
      cases hmem

theorem nodup_eraseDups (names : List String) : names.eraseDups.Nodup := by
  match names with
  | [] => exact List.nodup_nil
  | name :: names =>
      rw [List.eraseDups_cons, List.nodup_cons, List.mem_eraseDups]
      exact ⟨by simp, nodup_eraseDups (names.filter fun other => !other == name)⟩
termination_by names.length
decreasing_by exact Nat.lt_succ_of_le (List.length_filter_le _ _)

/-- The selection consists of what the paths add: of their columns, and behind each relation of a
selection of all paths that they add there. -/
structure Expands (k : Catalog) (fuel : Nat) (c : Collection) (paths : List (List String))
    (s : Selection) : Prop where
  /-- Every path adds something. -/
  parts : ∀ path ∈ paths, ∃ part, contribution c path = .ok part
  /-- The columns are those that paths add. -/
  columns : ∀ name, name ∈ s.columns ↔
    ∃ path ∈ paths, ∃ part, contribution c path = .ok part ∧ name ∈ part.columns
  /-- No column is listed twice. -/
  nodup_columns : s.columns.Nodup
  /-- Every relation behind which a path adds something is selected. -/
  behind : ∀ path ∈ paths, ∀ part, contribution c path = .ok part → ∀ name rest,
    (name, rest) ∈ part.nested → ∃ selected, (name, selected) ∈ s.relations
  /-- The selection behind a relation is one of the paths that are added there. -/
  relations : ∀ name selected, (name, selected) ∈ s.relations → ∃ target group,
    targetOf k c name = .ok target ∧ ofPaths k fuel target group = .ok selected ∧
      ∀ rest, rest ∈ group ↔
        ∃ path ∈ paths, ∃ part, contribution c path = .ok part ∧ (name, rest) ∈ part.nested
  /-- No relation is listed twice. -/
  nodup_relations : s.relations.names.Nodup

/-- A finished selection taken apart. -/
theorem expands_of_ofPaths {fuel : Nat} {paths : List (List String)} {s : Selection}
    (h : ofPaths k (fuel + 1) c paths = .ok s) : Expands k fuel c paths s := by
  obtain ⟨parts, hparts, h⟩ := Outcome.bind_eq_ok.1 h
  obtain ⟨relations, hrelations, h⟩ := Outcome.bind_eq_ok.1 h
  obtain rfl := Outcome.pure_eq_ok.1 h
  have hnested (name : String) (rest : List String) :
      (name, rest) ∈ parts.flatMap (·.nested) ↔
        ∃ path ∈ paths, ∃ part, contribution c path = .ok part ∧ (name, rest) ∈ part.nested := by
    rw [List.mem_flatMap, Outcome.exists_mem_mapM_iff hparts]
  have hnames : relations.map Prod.fst = (gather (parts.flatMap (·.nested))).map Prod.fst := by
    refine Outcome.map_eq_of_mapM (fun group entry hmade => ?_) hrelations
    obtain ⟨_, -, hmade⟩ := Outcome.bind_eq_ok.1 hmade
    obtain ⟨_, -, hmade⟩ := Outcome.bind_eq_ok.1 hmade
    rw [← Outcome.pure_eq_ok.1 hmade]
  refine ⟨fun path hpath => ?_, fun name => ?_, nodup_eraseDups _, ?_, ?_, ?_⟩
  · obtain ⟨part, -, hpart⟩ := Outcome.exists_mem_of_mapM hparts hpath
    exact ⟨part, hpart⟩
  · rw [columns, List.mem_eraseDups, List.mem_flatMap, Outcome.exists_mem_mapM_iff hparts]
  · intro path hpath part hpart name rest hrest
    obtain ⟨group, hgroup⟩ := exists_group ((hnested name rest).2 ⟨path, hpath, part, hpart, hrest⟩)
    have hname : name ∈ relations.map Prod.fst := hnames ▸ List.mem_map_of_mem hgroup
    obtain ⟨⟨_, selected⟩, hselected, rfl⟩ := List.mem_map.1 hname
    exact ⟨selected, hselected⟩
  · intro name selected hselected
    obtain ⟨⟨_, group⟩, hgroup, hmade⟩ := Outcome.exists_of_mem_mapM hrelations hselected
    obtain ⟨target, htarget, hmade⟩ := Outcome.bind_eq_ok.1 hmade
    obtain ⟨_, hbehind, hmade⟩ := Outcome.bind_eq_ok.1 hmade
    cases Outcome.pure_eq_ok.1 hmade
    refine ⟨target, group, htarget, hbehind, ?_⟩
    intro rest
    exact (mem_group_iff hgroup).trans (hnested name rest)
  · show (relations.map Prod.fst).Nodup
    rw [hnames]
    exact nodup_names_gather _

/-! ## The columns of a selection of paths -/

theorem hasRelation_of_targetOf (h : targetOf k c name = .ok target) :
    c.hasRelation name = true := by
  obtain ⟨r, hr, -⟩ := targetOf_eq_ok.1 h
  exact Option.isSome_of_eq_some hr

/-- What paths add behind a relation covers there what the paths cover as patterns. -/
theorem Expands.covers_iff {fuel : Nat} {paths group : List (List String)} {s : Selection}
    {tail : List String} (h : Expands k fuel c paths s) (hc : c.PlainNames)
    (hname : c.hasRelation name = true) (htail : tail ≠ [])
    (hgroup : ∀ rest, rest ∈ group ↔
      ∃ path ∈ paths, ∃ part, contribution c path = .ok part ∧ (name, rest) ∈ part.nested) :
    (∃ rest ∈ group, Covers (rest.map Text.trim) tail) ↔
      ∃ path ∈ paths, Covers (path.map Text.trim) (name :: tail) := by
  constructor
  · rintro ⟨rest, hrest, hcovers⟩
    obtain ⟨path, hpath, part, hpart, hrest⟩ := (hgroup rest).1 hrest
    have hadds := contributes_of_contribution hpart
    exact ⟨path, hpath, ((hadds.exists_mem_nested_iff hc htail).1 ⟨rest, hrest, hcovers⟩).2⟩
  · rintro ⟨path, hpath, hcovers⟩
    obtain ⟨part, hpart⟩ := h.parts path hpath
    have hadds := contributes_of_contribution hpart
    obtain ⟨rest, hrest, hcovers⟩ := (hadds.exists_mem_nested_iff hc htail).2 ⟨hname, hcovers⟩
    exact ⟨rest, (hgroup rest).2 ⟨path, hpath, part, hpart, hrest⟩, hcovers⟩

/-- A relation behind which the paths cover a column is selected. -/
theorem Expands.exists_behind {fuel : Nat} {paths : List (List String)} {s : Selection}
    {path tail : List String} (h : Expands k fuel c paths s) (hc : c.PlainNames)
    (hname : c.hasRelation name = true) (htail : tail ≠ []) (hpath : path ∈ paths)
    (hcovers : Covers (path.map Text.trim) (name :: tail)) :
    ∃ selected, (name, selected) ∈ s.relations := by
  obtain ⟨part, hpart⟩ := h.parts path hpath
  have hadds := contributes_of_contribution hpart
  obtain ⟨rest, hrest, -⟩ := (hadds.exists_mem_nested_iff hc htail).2 ⟨hname, hcovers⟩
  exact h.behind path hpath part hpart name rest hrest

/-- A selection of paths has the columns that the paths cover as patterns. -/
theorem mem_paths_ofPaths (hk : k.PlainNames) {fuel : Nat} (hc : c ∈ k.collections)
    {paths : List (List String)} (hfuel : ∀ path ∈ paths, Within fuel path) {s : Selection}
    (h : ofPaths k fuel c paths = .ok s) {column : List String} :
    column ∈ s.paths ↔
      k.ColumnPath c column ∧ ∃ path ∈ paths, Covers (path.map Text.trim) column := by
  induction fuel generalizing c paths s column with
  | zero =>
      -- without fuel there are no paths to select
      cases h
      refine iff_of_false (by simp [Selection.paths, relationPaths]) ?_
      rintro ⟨-, path, hpath, -⟩
      rcases hfuel path hpath with hlength | ⟨-, hpos⟩
      · exact Nat.not_lt_zero _ hlength
      · exact Nat.not_lt_zero _ hpos
  | succ fuel ih =>
      have hexp := expands_of_ofPaths h
      have hplain := hk c hc
      cases column with
      | nil => exact iff_of_false (nil_notMem_paths s) fun ⟨hcolumn, _⟩ => nomatch hcolumn
      | cons name tail =>
          by_cases htail : tail = []
          · rw [htail, mem_paths_singleton, hexp.columns, Catalog.columnPath_singleton]
            constructor
            · rintro ⟨path, hpath, part, hpart, hname⟩
              have hadds := contributes_of_contribution hpart
              obtain ⟨hfield, hcovers⟩ := (hadds.mem_columns_iff hplain).1 hname
              exact ⟨hfield, path, hpath, hcovers⟩
            · rintro ⟨hfield, path, hpath, hcovers⟩
              obtain ⟨part, hpart⟩ := hexp.parts path hpath
              have hadds := contributes_of_contribution hpart
              exact ⟨path, hpath, part, hpart, (hadds.mem_columns_iff hplain).2 ⟨hfield, hcovers⟩⟩
          · rw [mem_paths_cons htail, Catalog.columnPath_cons htail]
            -- behind a relation the same holds of the paths that are added there
            have hbehind {selected : Selection} (hmem : (name, selected) ∈ s.relations) :
                ∃ target, targetOf k c name = .ok target ∧ (tail ∈ selected.paths ↔
                  k.ColumnPath target tail ∧
                    ∃ path ∈ paths, Covers (path.map Text.trim) (name :: tail)) := by
              obtain ⟨target, group, htarget, hselected, hgroup⟩ := hexp.relations _ _ hmem
              have hwithin : ∀ rest ∈ group, Within fuel rest := by
                intro rest hrest
                obtain ⟨path, hpath, part, hpart, hrest⟩ := (hgroup rest).1 hrest
                exact (contributes_of_contribution hpart).within hplain (hfuel path hpath) hrest
              have hname := hasRelation_of_targetOf htarget
              refine ⟨target, htarget, ?_⟩
              rw [ih (mem_collections_of_targetOf htarget) hwithin hselected,
                hexp.covers_iff hplain hname htail hgroup]
            constructor
            · rintro ⟨selected, hmem, hselected⟩
              obtain ⟨target, htarget, hiff⟩ := hbehind hmem
              obtain ⟨hcolumn, hcovers⟩ := hiff.1 hselected
              exact ⟨⟨target, htarget, hcolumn⟩, hcovers⟩
            · rintro ⟨⟨target, htarget, hcolumn⟩, path, hpath, hcovers⟩
              have hname := hasRelation_of_targetOf htarget
              obtain ⟨selected, hmem⟩ := hexp.exists_behind hplain hname htail hpath hcovers
              obtain ⟨target', htarget', hiff⟩ := hbehind hmem
              obtain rfl := Except.ok.inj (htarget.symm.trans htarget')
              exact ⟨selected, hmem, hiff.2 ⟨hcolumn, path, hpath, hcovers⟩⟩

/-- Nothing is listed twice in the selection, nor in a selection behind a relation. -/
inductive Unrepeated : Selection → Prop where
  /-- No column and no relation is listed twice, and the same holds behind the relations. -/
  | node (columns : List String) (relations : List (String × Selection)) (hcolumns : columns.Nodup)
      (hrelations : (relations.map Prod.fst).Nodup)
      (hbehind : ∀ entry ∈ relations, Unrepeated entry.2) : Unrepeated (.node columns relations)

/-- A selection of paths lists nothing twice. -/
theorem unrepeated_ofPaths {fuel : Nat} {paths : List (List String)} {s : Selection}
    (h : ofPaths k fuel c paths = .ok s) : s.Unrepeated := by
  induction fuel generalizing c paths s with
  | zero =>
      cases h
      exact .node [] [] List.nodup_nil List.nodup_nil (by simp)
  | succ fuel ih =>
      have hexp := expands_of_ofPaths h
      obtain ⟨columns, relations⟩ := s
      refine .node _ _ hexp.nodup_columns hexp.nodup_relations ?_
      intro entry hentry
      obtain ⟨target, group, -, hselected, -⟩ := hexp.relations entry.1 entry.2 hentry
      exact ih hselected

/-! ## Lists of fields -/

/-- The paths of a list of fields in which something counts are those of the entries that do. -/
theorem pathsOf_some {fields : List String} (h : ∃ field ∈ fields, Text.trim field ≠ "") :
    pathsOf (some fields) =
      (fields.filter Allowlist.counts).map fun field => Text.split '.' (Text.trim field) := by
  have hgiven : (fields.filterMap fun field =>
      if (Text.trim field).isEmpty then none else some (Text.split '.' (Text.trim field))) =
        (fields.filter Allowlist.counts).map fun field => Text.split '.' (Text.trim field) := by
    rw [← List.filterMap_eq_map, List.filterMap_filter]
    refine List.filterMap_congr fun field _ => ?_
    cases hblank : (Text.trim field).isEmpty <;> simp [Allowlist.counts, hblank]
  have hne : ((fields.filter Allowlist.counts).map fun field =>
      Text.split '.' (Text.trim field)).isEmpty = false := by
    obtain ⟨field, hfield, hcounts⟩ := h
    have hmem : field ∈ fields.filter Allowlist.counts :=
      List.mem_filter.2 ⟨hfield, by simpa [Allowlist.counts] using hcounts⟩
    cases hkept : fields.filter Allowlist.counts with
    | nil =>
        rw [hkept] at hmem
        cases hmem
    | cons => rfl
  show (if (fields.filterMap _).isEmpty then _ else fields.filterMap _) = _
  rw [hgiven, hne]
  rfl

/-- The largest of some numbers is at least each of them. -/
theorem le_foldl_max (lengths : List Nat) (least : Nat) :
    least ≤ lengths.foldl max least ∧ ∀ n ∈ lengths, n ≤ lengths.foldl max least := by
  induction lengths generalizing least with
  | nil => exact ⟨Nat.le_refl _, List.forall_mem_nil _⟩
  | cons first lengths ih =>
      obtain ⟨hmax, hrest⟩ := ih (max least first)
      exact ⟨Nat.le_trans (Nat.le_max_left _ _) hmax,
        List.forall_mem_cons.2 ⟨Nat.le_trans (Nat.le_max_right _ _) hmax, hrest⟩⟩

/-- An expanded list of fields is a selection of its paths, with enough fuel for all of them. -/
theorem exists_fuel_of_expand {maxDepth : Int} {fields : Option (List String)} {s : Selection}
    (h : expand k maxDepth c fields = .ok s) :
    ∃ fuel, ofPaths k fuel c (pathsOf fields) = .ok s ∧
      ∀ path ∈ pathsOf fields, Within fuel path := by
  obtain ⟨_, -, h⟩ := Outcome.bind_eq_ok.1 h
  refine ⟨_, h, fun path hpath => .inl (Nat.lt_succ_of_le ?_)⟩
  exact (le_foldl_max _ 0).2 _ (List.mem_map_of_mem hpath)

/-- The entries of a list of fields are, as paths to expand, the patterns of its allowlist. -/
theorem map_trim_pathsOf {fields : List String} (h : ∃ field ∈ fields, Text.trim field ≠ "") :
    (pathsOf (some fields)).map (·.map Text.trim) =
      (fields.filter Allowlist.counts).map Allowlist.segments := by
  have hdot : Text.isBlank '.' = false := by decide
  rw [pathsOf_some h, List.map_map]
  refine List.map_congr_left fun field _ => ?_
  rw [Function.comp_apply, Allowlist.segments, Text.map_trim_split_trim hdot]

end Selection

/-- Over collections with plain names, a column is in the expanded selection of a list of fields iff
the allowlist of the same list allows its path; nothing is listed twice. -/
theorem mem_expand_iff_allowsPath (hk : k.PlainNames) (hc : c ∈ k.collections) {maxDepth : Int}
    {fields : List String} (hfields : ∃ field ∈ fields, Text.trim field ≠ "") {s : Selection}
    (hs : Selection.expand k maxDepth c (some fields) = .ok s) :
    ∃ a, Allowlist.ofFields (.list (fields.map .text)) = .ok a ∧
      (∀ column, column ∈ s.paths ↔
        k.ColumnPath c column ∧ a.allowsPath (Text.join "." column) = true) ∧
      s.Unrepeated := by
  obtain ⟨fuel, hpaths, hfuel⟩ := Selection.exists_fuel_of_expand hs
  refine ⟨_, Allowlist.ofFields_texts fields, fun column => ?_, Selection.unrepeated_ofPaths hpaths⟩
  rw [Selection.mem_paths_ofPaths hk hc hfuel hpaths]
  refine and_congr_right fun hcolumn => ?_
  have hpatterns := Selection.map_trim_pathsOf hfields
  rw [Allowlist.allowsPath, hcolumn.split_join hk hc, Allowlist.allowsSegments_iff_covers,
    ← hpatterns]
  simp

namespace Sample

/-- The names of posts and authors are plain. -/
theorem plainNames : reader.catalog.PlainNames := by
  intro c hc
  rcases List.mem_pair.1 hc with rfl | rfl
  · exact Collection.plainNames_of (by decide) (by decide) (by decide)
  · exact Collection.plainNames_of (by decide) (by decide) (by decide)

end Sample

/-- The title of posts and all about their authors, as fields and as patterns. -/
theorem mem_expand_iff_allowsPath_author : ∃ s,
    Selection.expand Sample.reader.catalog 7 Sample.posts (some ["title", "author"]) = .ok s ∧
    ∃ a, Allowlist.ofFields (.list (["title", "author"].map .text)) = .ok a ∧
      (∀ column, column ∈ s.paths ↔ Sample.reader.catalog.ColumnPath Sample.posts column ∧
        a.allowsPath (Text.join "." column) = true) ∧
      s.Unrepeated := by
  obtain ⟨s, hs⟩ : ∃ s, Selection.expand Sample.reader.catalog 7 Sample.posts
      (some ["title", "author"]) = .ok s := ⟨_, rfl⟩
  exact ⟨s, hs, mem_expand_iff_allowsPath Sample.plainNames List.mem_cons_self
    ⟨"title", List.mem_cons_self, by decide⟩ hs⟩

end Warden
