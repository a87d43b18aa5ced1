import Warden.Proofs.Filter.Pruning
import Warden.Proofs.Query.Projection
import Warden.Proofs.Query.Rendering

/-! # How many relations plans pass

Paths are refused that pass more relations than the limit. The number is taken from the text: a path
of a condition or of an order passes as many relations as it has dots, and so does a field path that
ends with a column. The bare name of a relation stands for the columns behind it, so a field path
that ends with one passes a relation more than was counted.

* **`Selection.Reaches`** lists the relations that a selection goes behind, and
  **`Catalog.BarePath`** says that a field path ends with a relation.
* A relation of a finished selection lies within the counted length of some path or at the end of a
  bare one (`exists_path_of_reaches`), and what a visible bare path ends with is selected
  (`reaches_of_barePath`).
* So plans stay within the limit in conditions and orders, and by one relation more in selections;
  selections stay within the limit iff no bare path uses it up (**`depth_of_plan`**). -/

namespace Warden

/-- Cutting a text gives one piece more than there are separators. -/
theorem Text.length_split (sep : Char) (s : String) :
    (split sep s).length = countChar sep s + 1 := by
  rw [split, List.length_map, countChar]
  induction s.toList with
  | nil => rfl
  | cons c cs ih =>
      rw [splitChars]
      split
      case isTrue hc => rw [List.length_cons, ih, hc, List.count_cons_self]
      case isFalse hc =>
        rw [List.count_cons_of_ne hc, ← ih]
        cases hcs : splitChars sep cs with
        | nil => exact absurd hcs (splitChars_ne_nil sep cs)
        | cons => rfl

variable {k : Catalog} {c target : Collection} {a : Allowlist} {s : Selection} {name : String}
  {path names : List String}

/-! ## Relations behind relations -/

namespace Selection

/-- The selection goes behind the relations, one after another. -/
inductive Reaches : Selection → List String → Prop where
  /-- It goes behind a relation of its own. -/
  | relation {s behind : Selection} {name : String} (h : (name, behind) ∈ s.relations) :
    Reaches s [name]
  /-- What it selects behind a relation goes on behind others. -/
  | behind {s behind : Selection} {name : String} {names : List String}
      (h : (name, behind) ∈ s.relations) (hnames : Reaches behind names) : Reaches s (name :: names)

theorem Reaches.ne_nil (h : s.Reaches names) : names ≠ [] := by
  cases h with
  | relation | behind => exact List.cons_ne_nil _ _

/-- The relations before a column are gone behind. -/
theorem reaches_of_mem_paths {column : String} (hnames : names ≠ [])
    (h : names ++ [column] ∈ s.paths) : s.Reaches names := by
  induction names generalizing s with
  | nil => exact absurd rfl hnames
  | cons name names ih =>
      obtain ⟨behind, hbehind, hcolumn⟩ := (mem_paths_cons (by simp)).1 h
      by_cases hend : names = []
      · exact hend ▸ .relation hbehind
      · exact .behind hbehind (ih hend hcolumn)

end Selection

/-- The path leads along the relations and ends with the last of them: it asks for a relation and
names no column behind it. -/
inductive Catalog.BarePath (k : Catalog) : Collection → List String → List String → Prop where
  /-- A relation by its bare name. -/
  | last {c target : Collection} {name : String} (hname : name ≠ wildcard)
      (htarget : Selection.targetOf k c name = .ok target) : BarePath k c [name] [name]
  /-- A bare path behind a relation, which is named or is one of all. -/
  | behind {c target : Collection} {segment name : String} {path names : List String}
      (hsegment : segment = name ∨ segment = wildcard)
      (htarget : Selection.targetOf k c name = .ok target) (h : BarePath k target path names) :
    BarePath k c (segment :: path) (name :: names)

theorem Catalog.BarePath.length_eq (h : k.BarePath c path names) : names.length = path.length := by
  induction h with
  | last => rfl
  | behind _ _ _ ih => rw [List.length_cons, List.length_cons, ih]

theorem Catalog.BarePath.ne_nil (h : k.BarePath c path names) : path ≠ [] ∧ names ≠ [] := by
  cases h with
  | last | behind => exact ⟨List.cons_ne_nil _ _, List.cons_ne_nil _ _⟩

/-- Something behind the relations is visible: nothing is hidden at all, or some column there is
allowed. -/
def Catalog.Visible (k : Catalog) (a : Allowlist) (c : Collection) (names : List String) : Prop :=
  a.isAll = true ∨
    ∃ column, k.ColumnPath c (names ++ [column]) ∧ a.allowsSegments (names ++ [column]) = true

/-- What is visible behind a relation is visible from before it. -/
theorem Catalog.Visible.behind (hname : a.allowsRelation name = true)
    (htarget : Selection.targetOf k c name = .ok target)
    (h : k.Visible (a.forRelation name) target names) : k.Visible a c (name :: names) := by
  rcases h with hall | ⟨column, hcolumn, hallowed⟩
  · -- behind a relation everything is allowed only if everything is
    refine .inl ?_
    obtain ⟨patterns⟩ := a
    cases patterns with
    | none => rfl
    | some => cases hall
  · refine .inr ⟨column, (columnPath_cons (by simp)).2 ⟨target, htarget, hcolumn⟩, ?_⟩
    rw [List.cons_append, Allowlist.allowsSegments_cons name (by simp), hname, hallowed]
    rfl

/-! ## Relations in the selection of paths -/

namespace Selection

variable {fuel : Nat} {paths group : List (List String)} {part : Contribution} {rest : List String}

theorem Within.exists_succ (h : Within fuel path) : ∃ n, fuel = n + 1 := by
  cases fuel with
  | zero =>
      rcases h with hlength | ⟨-, hpos⟩
      · exact absurd hlength (Nat.not_lt_zero _)
      · exact absurd hpos (Nat.lt_irrefl 0)
  | succ fuel => exact ⟨fuel, rfl⟩

/-- The path asks, behind the relation, for the rest. -/
inductive Leads : List String → String → List String → Prop where
  /-- The bare name of a relation asks for all fields behind it. -/
  | bare {name : String} (hname : name ≠ wildcard) : Leads [name] name [wildcard]
  /-- Other segments are asked for behind the relation, which is named or is one of all. -/
  | behind {segment name : String} {rest : List String} (hrest : rest ≠ [])
      (hsegment : segment = name ∨ segment = wildcard) : Leads (segment :: rest) name rest

/-- What the rest of a path needs is less than what the path needs. -/
theorem Leads.within (h : Leads path name rest) (hpath : Within (fuel + 1) path) :
    Within fuel rest := by
  cases h with
  | bare hname =>
      rcases hpath with hlength | ⟨hstar, -⟩
      · exact .inr ⟨rfl, Nat.lt_of_succ_lt_succ hlength⟩
      · exact absurd (List.singleton_inj.1 hstar) hname
  | behind hrest => exact hpath.tail hrest

/-- A path adds behind a relation of the collection what it asks for there. -/
theorem mem_nested_iff (h : contribution c path = .ok part) :
    (name, rest) ∈ part.nested ↔ c.hasRelation name = true ∧ Leads path name rest := by
  constructor
  · intro hrest
    have hadds := contributes_of_contribution h
    refine ⟨hadds.hasRelation hrest, ?_⟩
    cases hadds with
    | none | fields | field => cases hrest
    | relations hne =>
        obtain ⟨r, -, heq⟩ := List.mem_map.1 hrest
        cases heq
        exact .behind hne (.inr rfl)
    | bare =>
        cases List.mem_singleton.1 hrest
        refine .bare ?_
        -- the star alone stands for fields
        rintro rfl
        exact nomatch congrArg Contribution.nested (Except.ok.inj h)
    | behind _ hne =>
        cases List.mem_singleton.1 hrest
        exact .behind hne (.inl rfl)
  · rintro ⟨hname, hleads⟩
    cases hleads with
    | bare hstar =>
        simp only [contribution, if_neg hstar, hname, if_true] at h
        cases h
        exact List.mem_singleton.2 rfl
    | @behind segment _ _ hne hsegment =>
        by_cases hstar : segment = wildcard
        · simp only [contribution, if_pos hstar, mt List.isEmpty_iff.1 hne] at h
          cases h
          obtain ⟨r, hr, rfl⟩ := Collection.exists_relation_name.2 hname
          exact List.mem_map.2 ⟨r, hr, rfl⟩
        · obtain rfl := hsegment.resolve_right hstar
          simp only [contribution, if_neg hstar, hname, if_true, mt List.isEmpty_iff.1 hne] at h
          cases h
          exact List.mem_singleton.2 rfl

/-- A relation is selected because a path adds something behind it. -/
theorem exists_nested (h : ofPaths k (fuel + 1) c paths = .ok s) {selected : Selection}
    (hselected : (name, selected) ∈ s.relations) : ∃ path ∈ paths, ∃ part rest,
      contribution c path = .ok part ∧ (name, rest) ∈ part.nested := by
  obtain ⟨parts, hparts, h⟩ := Outcome.bind_eq_ok.1 h
  obtain ⟨relations, hrelations, h⟩ := Outcome.bind_eq_ok.1 h
  obtain rfl := Outcome.pure_eq_ok.1 h
  obtain ⟨⟨_, group⟩, hgroup, hmade⟩ := Outcome.exists_of_mem_mapM hrelations hselected
  obtain ⟨_, -, hmade⟩ := Outcome.bind_eq_ok.1 hmade
  obtain ⟨_, -, hmade⟩ := Outcome.bind_eq_ok.1 hmade
  cases Outcome.pure_eq_ok.1 hmade
  obtain ⟨⟨_, rest⟩, hnested, rfl⟩ := List.mem_map.1 (mem_names_of_mem_gather hgroup)
  obtain ⟨part, hpart, hrest⟩ := List.mem_flatMap.1 hnested
  obtain ⟨path, hpath, hadds⟩ := Outcome.exists_of_mem_mapM hparts hpart
  exact ⟨path, hpath, part, rest, hadds, hrest⟩

/-- Where something is hidden, relations behind which nothing is left are dropped. -/
theorem isEmpty_eq_false_of_restrict (ha : ¬ a.isAll = true) {left : Selection}
    (h : (name, left) ∈ (s.restrict a).relations) : left.isEmpty = false := by
  obtain ⟨columns, relations⟩ := s
  rw [restrict, if_neg ha] at h
  obtain ⟨_, -, -, -, hleft⟩ := mem_restrictRelations.1 h
  exact hleft

/-- If something is left of a selection of paths, an allowed column is or one of the paths goes
behind a relation. -/
theorem exists_of_restrict (h : ofPaths k fuel target group = .ok s)
    (hleft : (s.restrict a).isEmpty = false) :
    (∃ column, target.hasField column = true ∧ a.allowsField column = true) ∨
      ∃ rest ∈ group, rest ≠ [wildcard] ∧ rest ≠ [] := by
  cases hcolumns : (s.restrict a).columns with
  | cons column others =>
      have hcolumn : column ∈ (s.restrict a).columns := hcolumns ▸ List.mem_cons_self
      obtain ⟨hselected, hallowed⟩ := mem_columns_restrict.1 hcolumn
      cases fits_ofPaths h with
      | intro hfields => exact .inl ⟨column, hfields column hselected, hallowed⟩
  | nil =>
      cases hrelations : (s.restrict a).relations with
      | nil =>
          rw [isEmpty, hcolumns, hrelations] at hleft
          cases hleft
      | cons entry others =>
          have hentry : (entry.1, entry.2) ∈ (s.restrict a).relations :=
            hrelations ▸ List.mem_cons_self
          obtain ⟨behind, hbehind, -⟩ := exists_of_mem_relations_restrict hentry
          cases fuel with
          | zero =>
              cases h
              cases hbehind
          | succ fuel =>
              obtain ⟨rest, hrest, part, tail, hpart, hnested⟩ := exists_nested h hbehind
              refine .inr ⟨rest, hrest, ?_, ?_⟩
              all_goals
                rintro rfl
                cases hpart
                cases hnested

/-- **A relation that is left of a selection** lies within some path, before its last segment, or is
what a bare path ends with, and is then visible. -/
theorem exists_path_of_reaches (h : ofPaths k fuel c paths = .ok s)
    (hnames : (s.restrict a).Reaches names) :
    ∃ path ∈ paths, names.length < path.length ∨
      k.BarePath c path names ∧ k.Visible a c names := by
  induction fuel generalizing c paths s a names with
  | zero =>
      cases h
      cases hnames with
      | relation hleft | behind hleft =>
          obtain ⟨behind, hbehind, -⟩ := exists_of_mem_relations_restrict hleft
          cases hbehind
  | succ fuel ih =>
      have hexp := expands_of_ofPaths h
      cases hnames with
      | @relation _ left name hleft =>
          obtain ⟨behind, hbehind, hallowed, rfl⟩ := exists_of_mem_relations_restrict hleft
          obtain ⟨target, group, htarget, hselected, hgroup⟩ := hexp.relations _ _ hbehind
          obtain ⟨path, hpath, part, rest, hpart, hrest⟩ := exists_nested h hbehind
          obtain ⟨-, hleads⟩ := (mem_nested_iff hpart).1 hrest
          cases hleads with
          | behind hne =>
              exact ⟨_, hpath, .inl (by simpa using List.length_pos_of_ne_nil hne)⟩
          | bare hname =>
              have hbare : k.BarePath c [name] [name] := .last hname htarget
              by_cases ha : a.isAll = true
              · exact ⟨_, hpath, .inr ⟨hbare, .inl ha⟩⟩
              · rcases exists_of_restrict hselected (isEmpty_eq_false_of_restrict ha hleft) with
                  ⟨column, hfield, hcolumn⟩ | ⟨rest, hrest, hstar, hne⟩
                · have hvisible : k.Visible (a.forRelation name) target [] :=
                    .inr ⟨column, .field hfield, hcolumn⟩
                  exact ⟨_, hpath, .inr ⟨hbare, hvisible.behind hallowed htarget⟩⟩
                · -- the relation is left for a path that goes on behind it
                  obtain ⟨path, hpath, part, hpart, hrest⟩ := (hgroup rest).1 hrest
                  obtain ⟨-, hleads⟩ := (mem_nested_iff hpart).1 hrest
                  cases hleads with
                  | bare => exact absurd rfl hstar
                  | behind =>
                      exact ⟨_, hpath, .inl (by simpa using List.length_pos_of_ne_nil hne)⟩
      | @behind _ left name names hleft hnames =>
          obtain ⟨behind, hbehind, hallowed, rfl⟩ := exists_of_mem_relations_restrict hleft
          obtain ⟨target, group, htarget, hselected, hgroup⟩ := hexp.relations _ _ hbehind
          obtain ⟨rest, hrest, hlength⟩ := ih hselected hnames
          obtain ⟨path, hpath, part, hpart, hrest⟩ := (hgroup rest).1 hrest
          obtain ⟨-, hleads⟩ := (mem_nested_iff hpart).1 hrest
          cases hleads with
          | behind _ hsegment =>
              refine ⟨_, hpath, hlength.imp (by simp) ?_⟩
              rintro ⟨hbare, hvisible⟩
              exact ⟨.behind hsegment htarget hbare, hvisible.behind hallowed htarget⟩
          | bare =>
              -- behind a bare relation there are fields only
              rcases hlength with hlength | ⟨hbare, -⟩
              · exact absurd (Nat.lt_one_iff.1 hlength) (by simpa using hnames.ne_nil)
              · cases hbare with
                | last hstar => exact absurd rfl hstar
                | behind _ _ hbare => exact absurd rfl hbare.ne_nil.1

/-- Behind a relation for which a path asks there is a selection of the rest of the path. -/
theorem exists_behind (h : ofPaths k fuel c paths = .ok s)
    (hfuel : ∀ path ∈ paths, Within fuel path) (hpath : path ∈ paths)
    (hleads : Leads path name rest) (htarget : targetOf k c name = .ok target) :
    ∃ fuel selected group, (name, selected) ∈ s.relations ∧
      ofPaths k (fuel + 1) target group = .ok selected ∧ rest ∈ group ∧
      ∀ rest ∈ group, Within (fuel + 1) rest := by
  obtain ⟨fuel, rfl⟩ := (hfuel path hpath).exists_succ
  have hexp := expands_of_ofPaths h
  obtain ⟨part, hpart⟩ := hexp.parts path hpath
  have hnested := (mem_nested_iff hpart).2 ⟨hasRelation_of_targetOf htarget, hleads⟩
  obtain ⟨selected, hmem⟩ := hexp.behind path hpath part hpart name rest hnested
  obtain ⟨_, group, hreached, hselected, hgroup⟩ := hexp.relations name selected hmem
  obtain rfl := Except.ok.inj (htarget.symm.trans hreached)
  have hrest := (hgroup rest).2 ⟨path, hpath, part, hpart, hnested⟩
  have hwithin : ∀ rest ∈ group, Within fuel rest := by
    intro rest hrest
    obtain ⟨path, hpath, part, hpart, hrest⟩ := (hgroup rest).1 hrest
    exact ((mem_nested_iff hpart).1 hrest).2.within (hfuel path hpath)
  obtain ⟨fuel, rfl⟩ := (hwithin rest hrest).exists_succ
  exact ⟨fuel, selected, group, hmem, hselected, hrest, hwithin⟩

/-- What a bare path ends with is selected, with all fields behind it. -/
theorem reaches_of_mem (h : ofPaths k fuel c paths = .ok s)
    (hfuel : ∀ path ∈ paths, Within fuel path) (hpath : path ∈ paths)
    (hbare : k.BarePath c path names) :
    s.Reaches names ∧ ∀ column, k.ColumnPath c (names ++ [column]) →
      names ++ [column] ∈ s.paths := by
  induction hbare generalizing fuel paths s with
  | @last c target name hname htarget =>
      obtain ⟨fuel, selected, group, hmem, hselected, hstar, -⟩ :=
        exists_behind h hfuel hpath (.bare hname) htarget
      refine ⟨.relation hmem, fun column hcolumn => ?_⟩
      obtain ⟨_, hreached, hcolumn⟩ := (Catalog.columnPath_cons (List.cons_ne_nil _ _)).1 hcolumn
      obtain rfl := Except.ok.inj (htarget.symm.trans hreached)
      refine (mem_paths_cons (List.cons_ne_nil _ _)).2 ⟨selected, hmem, ?_⟩
      rw [mem_paths_singleton, (expands_of_ofPaths hselected).columns]
      exact ⟨_, hstar, _, rfl, Collection.mem_fieldNames.2 (Catalog.columnPath_singleton.1 hcolumn)⟩
  | @behind c target segment name path names hsegment htarget hbare ih =>
      obtain ⟨fuel, selected, group, hmem, hselected, hrest, hfuel⟩ :=
        exists_behind h hfuel hpath (.behind hbare.ne_nil.1 hsegment) htarget
      obtain ⟨hreaches, hcolumns⟩ := ih hselected hfuel hrest
      refine ⟨.behind hmem hreaches, fun column hcolumn => ?_⟩
      have hne : names ++ [column] ≠ [] := by simp
      obtain ⟨_, hreached, hcolumn⟩ := (Catalog.columnPath_cons hne).1 hcolumn
      obtain rfl := Except.ok.inj (htarget.symm.trans hreached)
      exact (mem_paths_cons hne).2 ⟨selected, hmem, hcolumns column hcolumn⟩

/-- What a bare path ends with is left of its selection if it is visible. -/
theorem reaches_of_barePath (h : ofPaths k fuel c paths = .ok s)
    (hfuel : ∀ path ∈ paths, Within fuel path) (hpath : path ∈ paths)
    (hbare : k.BarePath c path names) (hvisible : k.Visible a c names) :
    (s.restrict a).Reaches names := by
  obtain ⟨hreaches, hcolumns⟩ := reaches_of_mem h hfuel hpath hbare
  rcases hvisible with hall | ⟨column, hcolumn, hallowed⟩
  · rwa [Allowlist.eq_all_of_isAll hall, restrict_all]
  · exact reaches_of_mem_paths hbare.ne_nil.2
      (mem_paths_restrict_iff.2 ⟨hcolumns column hcolumn, hallowed⟩)

/-- There is something among the paths of every list of fields. -/
theorem exists_mem_pathsOf (fields : Option (List String)) :
    ∃ path ∈ pathsOf fields, path ≠ [] := by
  simp only [pathsOf]
  split
  case isTrue => exact ⟨_, List.mem_singleton.2 rfl, List.cons_ne_nil _ _⟩
  case isFalse hgiven =>
    obtain ⟨path, hpath⟩ := List.exists_mem_of_ne_nil _ (mt List.isEmpty_iff.2 hgiven)
    refine ⟨path, hpath, ?_⟩
    obtain ⟨field, -, hfield⟩ := List.mem_filterMap.1 hpath
    obtain ⟨-, hcut⟩ := Option.ite_none_left_eq_some.1 hfield
    rw [← Option.some.inj hcut, ← List.length_pos_iff, Text.length_split]
    exact Nat.succ_pos _

/-- The paths of an expanded list of fields pass no more relations than the limit by their length,
so the limit is not negative. -/
theorem length_le_of_expand {maxDepth : Int} {fields : Option (List String)}
    (h : expand k maxDepth c fields = .ok s) :
    0 ≤ maxDepth ∧ ∀ path ∈ pathsOf fields, (path.length : Int) - 1 ≤ maxDepth := by
  obtain ⟨_, hchecked, -⟩ := Outcome.bind_eq_ok.1 h
  have hlength : ∀ path ∈ pathsOf fields, (path.length : Int) - 1 ≤ maxDepth := by
    intro path hpath
    have hcheck := Outcome.forIn_eq_ok.1 hchecked path hpath
    rw [checkDepth] at hcheck
    split at hcheck
    · cases hcheck
    · next hle => exact Int.not_lt.1 hle
  obtain ⟨path, hpath, hne⟩ := exists_mem_pathsOf fields
  have hpos := List.length_pos_of_ne_nil hne
  exact ⟨by have := hlength path hpath; omega, hlength⟩

end Selection

/-! ## Plans -/

/-- The paths that a plan reads rows by pass at most so many relations. -/
structure Plan.ReadsWithin (p : Plan) (limit : Int) : Prop where
  /-- The paths of conditions do. -/
  filter : ∀ b ∈ p.filter.conditions, (FilterReader.depth b.field : Int) ≤ limit
  /-- The paths that rows are sorted by do. -/
  sort : p.isAggregate = false → ∀ key ∈ p.sort, (FilterReader.depth key.field : Int) ≤ limit

/-- What a plan selects of rows is behind at most so many relations. -/
structure Plan.SelectsWithin (p : Plan) (limit : Int) : Prop where
  /-- The columns are; all segments of their paths but the last are relations. -/
  columns : p.isAggregate = false → ∀ path ∈ p.selection.paths, (path.length : Int) - 1 ≤ limit
  /-- No relation is followed by more. -/
  relations : ∀ names, p.selection.Reaches names → (names.length : Int) ≤ limit

/-- The request asks for a relation by its bare name at the end of a path as long as the limit
allows, and something behind the relation is visible. -/
def Request.Overreaches (r : Request) (reader : FilterReader) (c : Collection) (a : Allowlist) :
    Prop :=
  ∃ path ∈ Selection.pathsOf r.fields, (path.length : Int) - 1 = reader.maxDepth ∧
    ∃ names, reader.catalog.BarePath c path names ∧ reader.catalog.Visible a c names

namespace Request

variable {r : Request} {reader : FilterReader} {grant : Grant} {resolver : Resolver} {p : Plan}
  {f : Option Filter} {related : Named Filter}

/-- The conditions of a plan under a grant without a condition pass as many relations as those of
the caller, which have been checked. -/
theorem depth_le_of_mem_filter (hp : p.Made r reader c grant resolver f related)
    (hc : grant.condition = none) {b : Condition} (hb : b ∈ p.filter.conditions) :
    (FilterReader.depth b.field : Int) ≤ reader.maxDepth := by
  obtain ⟨e, he, hfield⟩ := Resolver.exists_field_of_mem_resolveFilter hp.filter hb
  rw [hc] at he
  cases hf : f with
  | none => cases hu : grant.unrestricted <;> rw [hf, hu] at he <;> cases he
  | some g =>
      have he : e ∈ (g.prune grant.allowlist).conditions := by
        cases hu : grant.unrestricted <;> rw [hf, hu] at he <;> exact he
      have hread := FilterReader.checkCondition_of_parse (hf ▸ hp.own) e
        ((Filter.sublist_conditions_prune _ g).subset he)
      obtain ⟨_, hdepth, -⟩ := Outcome.bind_eq_ok.1 hread
      rw [FilterReader.checkDepth] at hdepth
      split at hdepth
      · cases hdepth
      · next hle =>
          rw [hfield]
          simpa using hle

/-- The paths that rows are sorted by have been checked. -/
theorem depth_le_of_mem_sort (hp : p.Made r reader c grant resolver f related)
    (hr : r.isAggregate = false) {key : SortKey} (hkey : key ∈ p.sort) :
    (FilterReader.depth key.field : Int) ≤ reader.maxDepth := by
  have hs := hp.sort
  simp only [planOrder, hr, Bool.false_eq_true, if_false] at hs
  have hcheck := checkSort_of_mem_planSort hs hkey
  simp only [checkSort] at hcheck
  split at hcheck
  · cases hcheck
  · next hle =>
      rw [Text.length_split] at hle
      rw [FilterReader.depth]
      omega

/-- The selection of a plan for rows is what is left of its fields, expanded. -/
theorem exists_expand (hp : p.Made r reader c grant resolver f related)
    (hr : r.isAggregate = false) :
    ∃ s, Selection.expand reader.catalog reader.maxDepth c r.fields = .ok s ∧
      p.selection = s.restrict grant.allowlist := by
  have hs := hp.selection
  simp only [planSelection, hr, Bool.false_eq_true, if_false, Outcome.map_eq_ok] at hs
  obtain ⟨s, hs, heq⟩ := hs
  exact ⟨s, hs, heq.symm⟩

/-- The relations of a plan for rows stay within the limit, or the request overreaches by one. -/
theorem length_le_of_reaches (hp : p.Made r reader c grant resolver f related)
    (hr : r.isAggregate = false) (hnames : p.selection.Reaches names) :
    (names.length : Int) ≤ reader.maxDepth ∨
      (names.length : Int) = reader.maxDepth + 1 ∧ r.Overreaches reader c grant.allowlist := by
  obtain ⟨s, hs, hselection⟩ := exists_expand hp hr
  obtain ⟨fuel, hpaths, -⟩ := Selection.exists_fuel_of_expand hs
  rw [hselection] at hnames
  obtain ⟨path, hpath, hlength⟩ := Selection.exists_path_of_reaches hpaths hnames
  have hlimit := (Selection.length_le_of_expand hs).2 path hpath
  by_cases hshort : (names.length : Int) ≤ reader.maxDepth
  · exact .inl hshort
  · obtain ⟨hbare, hvisible⟩ := hlength.resolve_left (by omega)
    have heq := hbare.length_eq
    exact .inr ⟨by omega, path, hpath, by omega, names, hbare, hvisible⟩

/-- A request that overreaches selects a relation too many. -/
theorem exists_reaches (hp : p.Made r reader c grant resolver f related)
    (hr : r.isAggregate = false) (h : r.Overreaches reader c grant.allowlist) :
    ∃ names, p.selection.Reaches names ∧ (names.length : Int) = reader.maxDepth + 1 := by
  obtain ⟨path, hpath, hlength, names, hbare, hvisible⟩ := h
  obtain ⟨s, hs, hselection⟩ := exists_expand hp hr
  obtain ⟨fuel, hpaths, hfuel⟩ := Selection.exists_fuel_of_expand hs
  refine ⟨names, ?_, ?_⟩
  · rw [hselection]
    exact Selection.reaches_of_barePath hpaths hfuel hpath hbare hvisible
  · rw [hbare.length_eq]
    omega

end Request

/-- A selection of columns only reaches no relation. -/
theorem Selection.not_reaches {columns : List String} :
    ¬ (Selection.node columns []).Reaches names := by
  intro h
  cases h with
  | relation h | behind h => cases h

/-- Columns lie behind no more relations than are reached. -/
theorem Plan.SelectsWithin.of_reaches {p : Plan} {limit : Int} (hlimit : 0 ≤ limit)
    (h : ∀ names, p.selection.Reaches names → (names.length : Int) ≤ limit) :
    p.SelectsWithin limit := by
  refine ⟨fun _ path hpath => ?_, h⟩
  rcases path.eq_nil_or_concat' with rfl | ⟨names, column, rfl⟩
  · exact absurd hpath (Selection.nil_notMem_paths _)
  · rw [List.length_append, List.length_singleton]
    by_cases hnames : names = []
    · simpa [hnames] using hlimit
    · have hle := h names (Selection.reaches_of_mem_paths hnames hpath)
      omega

/-- **How many relations a plan passes.** Under a grant without a condition of its own, a plan stays
within the limit in its conditions and its order, and by at most one relation more in its selection;
its selection stays within the limit iff the request does not ask, at the end of a path that uses up
the limit, for a visible relation by its bare name. -/
theorem depth_of_plan {r : Request} {reader : FilterReader} {grant : Grant} {resolver : Resolver}
    {p : Plan} (hc : grant.condition = none) (h : r.plan reader grant resolver = .ok p) :
    ∃ c, reader.catalog.find r.collection = .ok c ∧ p.ReadsWithin reader.maxDepth ∧
      p.SelectsWithin (reader.maxDepth + 1) ∧
      (p.SelectsWithin reader.maxDepth ↔ grant.denied = true ∨ r.isAggregate = true ∨
        ¬ r.Overreaches reader c grant.allowlist) := by
  cases hd : grant.denied with
  | true =>
      -- the empty plan reads and selects nothing
      obtain ⟨c, hfound, rfl⟩ := Request.plan_of_denied hd h
      have hwithin (limit : Int) :
          (Request.emptyPlan c.name grant.allowlist resolver.now).SelectsWithin limit :=
        ⟨fun _ _ hpath => (nomatch hpath), fun _ hnames => absurd hnames Selection.not_reaches⟩
      refine ⟨c, hfound, ⟨fun _ hb => (nomatch hb), fun _ _ hkey => (nomatch hkey)⟩, hwithin _, ?_⟩
      exact iff_of_true (hwithin _) (.inl rfl)
  | false =>
      obtain ⟨c, f, related, hfound, hp⟩ := Request.made_of_plan hd h
      have hkind := hp.isAggregate_eq
      refine ⟨c, hfound, ⟨fun b hb => Request.depth_le_of_mem_filter hp hc hb, fun hr key hkey =>
        Request.depth_le_of_mem_sort hp (hkind ▸ hr) hkey⟩, ?_⟩
      cases hr : r.isAggregate with
      | true =>
          have hwithin (limit : Int) : p.SelectsWithin limit := by
            refine ⟨fun hrows => ?_, fun names hnames => ?_⟩
            · rw [hkind, hr] at hrows
              cases hrows
            · rw [Request.selection_of_isAggregate hp hr] at hnames
              exact absurd hnames Selection.not_reaches
          exact ⟨hwithin _, iff_of_true (hwithin _) (.inr (.inl rfl))⟩
      | false =>
          obtain ⟨s, hs, -⟩ := Request.exists_expand hp hr
          have hlimit := (Selection.length_le_of_expand hs).1
          have hreaches (names : List String) (hnames : p.selection.Reaches names) :=
            Request.length_le_of_reaches hp hr hnames
          refine ⟨Plan.SelectsWithin.of_reaches (by omega) fun names hnames => ?_,
            fun hwithin => ?_, fun hnot => ?_⟩
          · rcases hreaches names hnames with hle | ⟨heq, -⟩ <;> omega
          · refine .inr (.inr fun hover => ?_)
            obtain ⟨names, hnames, heq⟩ := Request.exists_reaches hp hr hover
            have hle := hwithin.relations names hnames
            omega
          · have hnot : ¬ r.Overreaches reader c grant.allowlist := by simpa using hnot
            exact .of_reaches hlimit fun names hnames =>
              (hreaches names hnames).resolve_right fun hover => hnot hover.2

namespace Sample

/-- The authors with their posts. -/
def contributors : Collection :=
  { users with relations := [⟨"posts", .oneToMany, "posts", some "author_id", none, none, none⟩] }

/-- Posts and authors related to each other, of which paths may pass one relation. -/
def mutualReader : FilterReader :=
  ⟨⟨[posts, contributors]⟩, 1⟩

/-- The other posts of the author of each post. -/
def siblingPosts : Request :=
  { Request.all "posts" 10 with fields := some ["author.posts"] }

/-- The plan of the request under the administrator's grant. -/
def siblingPlan : Plan :=
  { Request.emptyPlan "posts" .all noon with
    filter := .all
    selection := .node [] [("author", .node [] [("posts", .node ["id", "title", "author_id"] [])])]
    limit := 10 }

/-- The request has the plan. -/
theorem plan_siblingPosts : siblingPosts.plan mutualReader .admin resolver = .ok siblingPlan := by
  have hexpand : Selection.expand mutualReader.catalog mutualReader.maxDepth posts
      siblingPosts.fields = .ok siblingPlan.selection := by rfl
  have hselection : siblingPosts.planSelection mutualReader posts .all [] [] =
      .ok siblingPlan.selection := Outcome.map_eq_ok.2 ⟨_, hexpand, Selection.restrict_all _⟩
  refine Outcome.bind_eq_ok.2 ⟨posts, rfl, ?_⟩
  show siblingPosts.planGranted mutualReader posts .admin resolver = _
  simp only [Request.planGranted, Outcome.bind_eq_ok, Outcome.pure_eq_ok]
  exact ⟨none, rfl, _, rfl, [], rfl, _, rfl, [], rfl, [], rfl, [], rfl, _, rfl, _, hselection, [],
    rfl, none, rfl, (10, 0), rfl, rfl⟩

end Sample

/-- The posts of the authors of posts are behind two relations. -/
theorem depth_of_plan_siblings :
    Sample.siblingPosts.plan Sample.mutualReader .admin Sample.resolver = .ok Sample.siblingPlan ∧
      Sample.siblingPlan.ReadsWithin 1 ∧ Sample.siblingPlan.SelectsWithin 2 := by
  obtain ⟨_, -, hreads, hselects, -⟩ := depth_of_plan rfl Sample.plan_siblingPosts
  exact ⟨Sample.plan_siblingPosts, hreads, hselects⟩

/-- They are selected although paths may pass one relation only. -/
theorem sibling_posts_too_deep :
    Sample.siblingPosts.plan Sample.mutualReader .admin Sample.resolver = .ok Sample.siblingPlan ∧
      Sample.siblingPlan.selection.Reaches ["author", "posts"] ∧
      ¬ Sample.siblingPlan.SelectsWithin Sample.mutualReader.maxDepth := by
  have hreaches : Sample.siblingPlan.selection.Reaches ["author", "posts"] :=
    .behind List.mem_cons_self (.relation List.mem_cons_self)
  refine ⟨Sample.plan_siblingPosts, hreaches, fun h => ?_⟩
  exact absurd (h.relations _ hreaches) (by decide)

end Warden
