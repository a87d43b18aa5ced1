import Warden.Proofs.Query.Confinement
import Warden.Proofs.Sql.Names

/-! # The names in a plan

What a request selects, sorts by, groups by, aggregates and searches is checked against the
collections, so the names in its plan are declared ones, and all others are labels of aggregates. A
property of the declared names and of these labels then holds of every name in the plan
(**`Plan.Over`**, `over_plan`), and of every name in the statements of the plan
(**`Select.Over`**, **`Count.Over`**). -/

namespace Warden

open Sql

variable {P : String → Prop} {k : Catalog} {c : Collection}

/-! ## Selections -/

namespace Selection

/-- The property holds of the columns and of the relations that are selected. -/
inductive Over (P : String → Prop) : Selection → Prop where
  /-- It holds of the columns and of the relations, and behind each of them. -/
  | node (columns : List String) (relations : List (String × Selection))
      (hcolumns : ∀ name ∈ columns, P name) (hrelations : ∀ entry ∈ relations, P entry.1)
      (hbehind : ∀ entry ∈ relations, Over P entry.2) : Over P (.node columns relations)

/-- A path adds columns and relations of the collection. -/
theorem over_contribution (hc : c.Over P) {path : List String} {part : Contribution}
    (h : contribution c path = .ok part) :
    (∀ name ∈ part.columns, P name) ∧ ∀ entry ∈ part.nested, P entry.1 := by
  unfold contribution at h
  cases path with
  | nil =>
      cases h
      simp
  | cons segment rest =>
      simp only at h
      split at h
      · split at h
        · cases h
          exact ⟨List.forall_mem_map.2 hc.fields, by simp⟩
        · cases h
          exact ⟨by simp, List.forall_mem_map.2 fun r hr => (hc.relations r hr).name⟩
      · split at h
        · next hsegment =>
            cases h
            exact ⟨by simp, by simpa using hc.hasRelation hsegment⟩
        · split at h
          · next hsegment =>
              split at h
              · cases h
                exact ⟨by simpa using hc.hasField hsegment, by simp⟩
              · cases h
          · cases h

/-- Paths are gathered under the names they begin with. -/
theorem mem_names_of_mem_gather {nested : List (String × List String)}
    {entry : String × List (List String)} (h : entry ∈ gather nested) :
    entry.1 ∈ nested.map Prod.fst := by
  suffices hfold : ∀ groups : Named (List (List String)),
      entry ∈ nested.foldl (fun groups first =>
        groups.insert first.1 ((groups.find? first.1).getD [] ++ [first.2])) groups →
      entry.1 ∈ groups.names ∨ entry.1 ∈ nested.map Prod.fst from
    (hfold [] h).resolve_left List.not_mem_nil
  clear h
  induction nested with
  | nil => exact fun groups h => .inl (List.mem_map_of_mem h)
  | cons first nested ih =>
      intro groups h
      rcases ih _ h with hgroups | hnested
      · rcases Named.mem_names_insert hgroups with hfirst | hgroups
        · exact .inr (hfirst ▸ List.mem_cons_self)
        · exact .inl hgroups
      · exact .inr (List.mem_cons_of_mem _ hnested)

theorem over_targetOf (hk : k.Over P) {relation : String} {target : Collection}
    (h : targetOf k c relation = .ok target) : target.Over P := by
  rw [targetOf] at h
  split at h
  · next found hfound =>
      cases h
      obtain ⟨r, -, hr⟩ := Option.bind_eq_some_iff.1 hfound
      exact hk.find? hr
  · cases h

/-- A selection of paths names columns and relations of the collections they lead to. -/
theorem over_ofPaths (hk : k.Over P) {fuel : Nat} (hc : c.Over P) {paths : List (List String)}
    {s : Selection} (h : ofPaths k fuel c paths = .ok s) : s.Over P := by
  induction fuel generalizing c paths s with
  | zero =>
      cases h
      exact .node [] [] (by simp) (by simp) (by simp)
  | succ fuel ih =>
      obtain ⟨parts, hparts, h⟩ := Outcome.bind_eq_ok.1 h
      obtain ⟨relations, hrelations, h⟩ := Outcome.bind_eq_ok.1 h
      obtain rfl := Outcome.pure_eq_ok.1 h
      have hpart : ∀ part ∈ parts,
          (∀ name ∈ part.columns, P name) ∧ ∀ entry ∈ part.nested, P entry.1 := by
        intro part hpart
        obtain ⟨path, -, hpath⟩ := Outcome.exists_of_mem_mapM hparts hpart
        exact over_contribution hc hpath
      have hbehind : ∀ entry ∈ relations, P entry.1 ∧ entry.2.Over P := by
        intro entry hentry
        obtain ⟨group, hgroup, hmade⟩ := Outcome.exists_of_mem_mapM hrelations hentry
        obtain ⟨target, htarget, hmade⟩ := Outcome.bind_eq_ok.1 hmade
        obtain ⟨behind, hselected, hmade⟩ := Outcome.bind_eq_ok.1 hmade
        obtain rfl := Outcome.pure_eq_ok.1 hmade
        obtain ⟨first, hfirst, hname⟩ := List.mem_map.1 (mem_names_of_mem_gather hgroup)
        obtain ⟨part, hmem, hnested⟩ := List.mem_flatMap.1 hfirst
        exact ⟨hname ▸ (hpart part hmem).2 first hnested, ih (over_targetOf hk htarget) hselected⟩
      refine .node _ _ (fun name hname => ?_) (fun entry he => (hbehind entry he).1)
        fun entry he => (hbehind entry he).2
      obtain ⟨part, hmem, hcolumn⟩ := List.mem_flatMap.1 (List.mem_eraseDups.1 hname)
      exact (hpart part hmem).1 name hcolumn

theorem exists_of_mem_restrictRelations {a : Allowlist} {relations : List (String × Selection)}
    {entry : String × Selection} (h : entry ∈ restrictRelations a relations) :
    ∃ e ∈ relations, entry = (e.1, e.2.restrict (a.forRelation e.1)) := by
  induction relations with
  | nil => cases h
  | cons e relations ih =>
      have hlater (h : entry ∈ restrictRelations a relations) :
          ∃ d ∈ e :: relations, entry = (d.1, d.2.restrict (a.forRelation d.1)) := by
        obtain ⟨d, hd, hentry⟩ := ih h
        exact ⟨d, List.mem_cons_of_mem _ hd, hentry⟩
      rw [restrictRelations] at h
      split at h
      · dsimp only at h
        split at h
        · exact hlater h
        · rcases List.mem_cons.1 h with rfl | h
          · exact ⟨e, List.mem_cons_self, rfl⟩
          · exact hlater h
      · exact hlater h

/-- What is left of a selection names nothing else. -/
theorem Over.restrict {s : Selection} (h : s.Over P) (a : Allowlist) : (s.restrict a).Over P := by
  induction h generalizing a with
  | node columns relations hcolumns hrelations hbehind ih =>
      rw [Selection.restrict]
      split
      · exact .node columns relations hcolumns hrelations hbehind
      · refine .node _ _ (fun name hname => hcolumns name (List.mem_filter.1 hname).1) ?_ ?_
        · intro entry hentry
          obtain ⟨e, he, rfl⟩ := exists_of_mem_restrictRelations hentry
          exact hrelations e he
        · intro entry hentry
          obtain ⟨e, he, rfl⟩ := exists_of_mem_restrictRelations hentry
          exact ih e he _

end Selection

/-! ## Names in statements that read -/

namespace Sql

/-- The name of the column that rows are grouped by. -/
def Group.name : Group → String
  | .column c | .part _ c => c.name

/-- The property holds of the names in an output. -/
inductive Output.Over (P : String → Prop) : Output → Prop where
  /-- It holds of the column. -/
  | column (c : Column) (h : P c.name) : Over P (.column c)
  /-- It holds of the column that is grouped by. -/
  | group (g : Group) (h : P g.name) : Over P (.group g)
  /-- It holds of the column that is aggregated, if there is one. -/
  | aggregate (function : AggregateFunction) (c : Option Column)
      (h : ∀ column, c = some column → P column.name) : Over P (.aggregate function c)
  /-- It holds of the join, the members and the condition. -/
  | related (j : Join) (members : List (String × Output)) (condition : List Predicate)
      (single : Bool) (hj : j.Over P) (hnames : ∀ entry ∈ members, P entry.1)
      (hmembers : ∀ entry ∈ members, Over P entry.2) (hcondition : ∀ p ∈ condition, p.Over P) :
      Over P (.related j members condition single)

/-- The property holds of the names in what rows are sorted by. -/
inductive Sorting.Over (P : String → Prop) : Sorting → Prop where
  /-- It holds of the column. -/
  | column (c : Column) (h : P c.name) : Over P (.column c)
  /-- It holds of the join and behind it. -/
  | behind (j : Join) (s : Sorting) (hj : j.Over P) (hs : Over P s) : Over P (.behind j s)

/-- The property holds of the names in a key of an order. -/
inductive Order.Over (P : String → Prop) : Order → Prop where
  /-- It holds of the columns that are searched. -/
  | rank (columns : List Column) (term : String) (h : ∀ c ∈ columns, P c.name) :
      Over P (.rank columns term)
  /-- It holds of what the rows are sorted by. -/
  | row (s : Sorting) (direction : SortDirection) (h : s.Over P) : Over P (.row s direction)
  /-- It holds of the label. -/
  | output (label : String) (direction : SortDirection) (h : P label) :
      Over P (.output label direction)

/-- The property holds of the names in a statement that reads rows. -/
structure Select.Over (P : String → Prop) (s : Select) : Prop where
  /-- It holds of the labels. -/
  labels : ∀ entry ∈ s.outputs, P entry.1
  /-- It holds of the names in what is returned. -/
  outputs : ∀ entry ∈ s.outputs, entry.2.Over P
  /-- It holds of the table. -/
  table : P s.table
  /-- It holds of the names in the conditions. -/
  conditions : ∀ p ∈ s.conditions, p.Over P
  /-- It holds of the names of the group keys. -/
  groups : ∀ g ∈ s.groups, P g.name
  /-- It holds of the names in the order. -/
  order : ∀ o ∈ s.order, o.Over P

/-- The property holds of the names in a statement that counts. -/
inductive Count.Over (P : String → Prop) : Count → Prop where
  /-- There is no name. -/
  | one : Over P .one
  /-- It holds of the table and the conditions. -/
  | rows (table : String) (conditions : List Predicate) (htable : P table)
      (hconditions : ∀ p ∈ conditions, p.Over P) : Over P (.rows table conditions)
  /-- It holds of the table, the conditions and the group keys. -/
  | groups (table : String) (conditions : List Predicate) (keys : List Group) (htable : P table)
      (hconditions : ∀ p ∈ conditions, p.Over P) (hkeys : ∀ g ∈ keys, P g.name) :
      Over P (.groups table conditions keys)

/-! ## Outputs of selections -/

mutual

/-- The outputs of a selection have the names of the selection and of the joins in it. -/
theorem over_selectionOutputs (hk : k.Over P) {c : Collection} (hc : c.Over P) {row n m : Alias}
    {conditions : Named Filter} {s : Selection} (hs : s.Over P) {outputs : List (String × Output)}
    (h : selectionOutputs k c row conditions s n = .ok (outputs, m)) :
    ∀ entry ∈ outputs, P entry.1 ∧ entry.2.Over P := by
  match s with
  | .node columns relations =>
      cases hs with
      | node _ _ hcolumns hrelations hbehind =>
          obtain ⟨related, _, hrelated, h⟩ := Build.bind_eq_ok.1 h
          obtain ⟨rfl, -⟩ := Build.pure_eq_ok.1 h
          intro entry hentry
          rcases List.mem_append.1 hentry with hentry | hentry
          · obtain ⟨name, hname, rfl⟩ := List.mem_map.1 hentry
            exact ⟨hcolumns name hname, .column _ (hcolumns name hname)⟩
          · exact over_relationOutputs hk hc relations hrelations hbehind hrelated entry hentry

/-- The outputs of selections behind relations have the names of the relations. -/
theorem over_relationOutputs (hk : k.Over P) {c : Collection} (hc : c.Over P) {row n m : Alias}
    {conditions : Named Filter} (relations : List (String × Selection))
    (hrelations : ∀ entry ∈ relations, P entry.1) (hbehind : ∀ entry ∈ relations, entry.2.Over P)
    {outputs : List (String × Output)}
    (h : relationOutputs k c row conditions relations n = .ok (outputs, m)) :
    ∀ entry ∈ outputs, P entry.1 ∧ entry.2.Over P := by
  match relations with
  | [] =>
      obtain ⟨rfl, -⟩ := Build.pure_eq_ok.1 h
      exact fun entry hentry => nomatch hentry
  | (name, s) :: relations =>
      obtain ⟨hname, hrelations⟩ := List.forall_mem_cons.1 hrelations
      obtain ⟨hs, hbehind⟩ := List.forall_mem_cons.1 hbehind
      rw [relationOutputs] at h
      cases hr : c.relation? name with
      | none =>
          rw [hr] at h
          cases h
      | some r =>
          rw [hr] at h
          obtain ⟨⟨j, target⟩, _, hjoin, h⟩ := Build.bind_eq_ok.1 h
          obtain ⟨members, _, hmembers, h⟩ := Build.bind_eq_ok.1 h
          obtain ⟨hj, htarget⟩ := over_joinRelation hk hc hjoin
          have hmember := over_selectionOutputs hk htarget hs hmembers
          -- whatever the condition on the related rows is made of
          have hrest {condition : List Predicate} {l : Alias}
              (hcondition : ∀ p ∈ condition, p.Over P)
              (h : (do
                return (name, Output.related j members condition r.isToOne) ::
                  (← relationOutputs k c row conditions relations) : Build _) l =
                    .ok (outputs, m)) : ∀ entry ∈ outputs, P entry.1 ∧ entry.2.Over P := by
            obtain ⟨others, _, hothers, h⟩ := Build.bind_eq_ok.1 h
            obtain ⟨rfl, -⟩ := Build.pure_eq_ok.1 h
            refine List.forall_mem_cons.2 ⟨⟨hname, ?_⟩, ?_⟩
            · exact .related j members condition _ hj (fun e he => (hmember e he).1)
                (fun e he => (hmember e he).2) hcondition
            · exact over_relationOutputs hk hc relations hrelations hbehind hothers
          cases hf : Named.find? conditions name with
          | none =>
              rw [hf] at h
              exact hrest (List.forall_mem_nil _) h
          | some f =>
              rw [hf] at h
              by_cases hall : f.isAll = true
              · simp only [hall, if_true] at h
                exact hrest (List.forall_mem_nil _) h
              · simp only [hall] at h
                obtain ⟨condition, _, hcondition, h⟩ := Build.bind_eq_ok.1 h
                obtain ⟨p, hp, rfl⟩ := Build.map_eq_ok.1 hcondition
                refine hrest ?_ h
                rw [List.forall_mem_singleton]
                exact over_predicate hk htarget hp

end

end Sql

/-! ## Names in plans -/

/-- The property holds of the names in a plan, those in its conditions apart, which are read against
the collections. -/
structure Plan.Over (P : String → Prop) (p : Plan) : Prop where
  /-- It holds of what is selected of rows. -/
  selection : p.isAggregate = false → p.selection.Over P
  /-- It holds of the columns that rows are sorted by. -/
  sortColumns : p.isAggregate = false → ∀ key ∈ p.sort, ∀ name,
    (Text.split '.' key.field).getLast? = some name → P name
  /-- It holds of the labels that groups are sorted by. -/
  sortLabels : p.isAggregate = true → ∀ key ∈ p.sort, P key.field
  /-- It holds of the fields that are searched. -/
  search : ∀ s, p.search = some s → ∀ name ∈ s.fields, P name
  /-- It holds of the fields of group keys. -/
  groups : ∀ key ∈ p.groupBy, P key.field
  /-- It holds of the labels of group keys. -/
  groupLabels : ∀ key ∈ p.groupBy, P key.label
  /-- It holds of the fields that are aggregated, all rows apart. -/
  aggregates : ∀ entry ∈ p.aggregate, entry.2.field ≠ Aggregate.allRows → P entry.2.field
  /-- It holds of the labels of aggregates. -/
  labels : ∀ entry ∈ p.aggregate, P entry.1

namespace Request

variable {r : Request} {reader : FilterReader} {a : Allowlist}

theorem over_followSort (hk : k.Over P) (hc : c.Over P) {path : List String} {target : Collection}
    (h : followSort k c path = .ok target) : target.Over P := by
  induction path generalizing c with
  | nil =>
      cases h
      exact hc
  | cons segment rest ih =>
      rw [followSort] at h
      split at h
      · cases h
      · split at h
        · split at h
          · cases h
          · next found hfound => exact ih (hk.find? hfound) h
        · cases h

/-- A path that may be sorted by ends with a field. -/
theorem over_checkSort (hk : reader.catalog.Over P) (hc : c.Over P) {path : String}
    (h : checkSort reader c path = .ok ()) {name : String}
    (hname : (Text.split '.' path).getLast? = some name) : P name := by
  simp only [checkSort] at h
  split at h
  · cases h
  · obtain ⟨target, htarget, h⟩ := Outcome.bind_eq_ok.1 h
    split at h
    · next hfield =>
        rw [hname] at hfield
        exact (over_followSort hk hc htarget).hasField hfield
    · cases h

theorem over_planSort (hk : reader.catalog.Over P) (hc : c.Over P) {sort kept : List SortKey}
    (h : planSort reader c a sort = .ok kept) {key : SortKey} (hkey : key ∈ kept) {name : String}
    (hname : (Text.split '.' key.field).getLast? = some name) : P name := by
  induction sort generalizing kept with
  | nil =>
      cases h
      cases hkey
  | cons first sort ih =>
      obtain ⟨_, hcheck, h⟩ := Outcome.bind_eq_ok.1 h
      split at h
      · obtain ⟨rest, hrest, h⟩ := Outcome.bind_eq_ok.1 h
        obtain rfl := Outcome.pure_eq_ok.1 h
        rcases List.mem_cons.1 hkey with rfl | hkey
        · exact over_checkSort hk hc hcheck hname
        · exact ih hrest hkey
      · exact ih h hkey

theorem over_planAggregate (hc : c.Over P) {aggregate kept : Named Aggregate}
    (h : planAggregate c a aggregate = .ok kept) {entry : String × Aggregate}
    (hentry : entry ∈ kept) (hfield : entry.2.field ≠ Aggregate.allRows) : P entry.2.field := by
  induction aggregate generalizing kept with
  | nil =>
      cases h
      cases hentry
  | cons first aggregate ih =>
      obtain ⟨label, g⟩ := first
      have hkeep (hg : g.field ≠ Aggregate.allRows → P g.field)
          (h : (do return (label, g) :: (← planAggregate c a aggregate)) = Except.ok kept) :
          P entry.2.field := by
        obtain ⟨rest, hrest, h⟩ := Outcome.bind_eq_ok.1 h
        obtain rfl := Outcome.pure_eq_ok.1 h
        rcases List.mem_cons.1 hentry with rfl | hentry
        · exact hg hfield
        · exact ih hrest hentry
      rw [planAggregate] at h
      split at h
      case isTrue hall => exact hkeep (fun hne => absurd hall hne) h
      case isFalse =>
        split at h
        · cases h
        · next f hf =>
            split at h
            · cases h
            · split at h
              · exact hkeep (fun _ => hc.field hf) h
              · exact ih h hentry

theorem over_planGroups (hc : c.Over P) {groups kept : List GroupKey}
    (h : planGroups c a groups = .ok kept) {key : GroupKey} (hkey : key ∈ kept) : P key.field := by
  induction groups generalizing kept with
  | nil =>
      cases h
      cases hkey
  | cons first groups ih =>
      rw [planGroups] at h
      split at h
      · cases h
      · next f hf =>
          have hstep (h : (if a.allowsField first.field = true then
                do return first :: (← planGroups c a groups)
              else planGroups c a groups) = Except.ok kept) : P key.field := by
            split at h
            · obtain ⟨rest, hrest, h⟩ := Outcome.bind_eq_ok.1 h
              obtain rfl := Outcome.pure_eq_ok.1 h
              rcases List.mem_cons.1 hkey with rfl | hkey
              · exact hc.field hf
              · exact ih hrest hkey
            · exact ih h hkey
          split at h
          · split at h
            · cases h
            · exact hstep h
          · exact hstep h

theorem over_planSearch (hc : c.Over P) {s : Search} (h : r.planSearch c a = .ok (some s))
    {name : String} (hname : name ∈ s.fields) : P name := by
  simp only [planSearch] at h
  split at h
  · cases h
  · split at h
    · obtain ⟨rfl⟩ := h
      obtain ⟨f, hf, rfl⟩ := List.mem_map.1 (List.mem_filter.1 hname).1
      exact hc.fields f (List.mem_filter.1 hf).1
    · simp only [Outcome.bind_eq_ok, Outcome.pure_eq_ok] at h
      obtain ⟨_, hchecked, fields, rfl, h⟩ := h
      obtain ⟨rfl⟩ := h
      have hcheck := Outcome.forIn_eq_ok.1 hchecked name (List.mem_filter.1 hname).1
      rw [checkSearchField] at hcheck
      split at hcheck
      · cases hcheck
      · next f hf => exact hc.field hf

theorem over_planSelection (hk : reader.catalog.Over P) (hc : c.Over P)
    {aggregate : Named Aggregate} {groups : List GroupKey} {s : Selection}
    (hr : r.isAggregate = false)
    (h : r.planSelection reader c a aggregate groups = .ok s) : s.Over P := by
  simp only [planSelection, hr, Bool.false_eq_true, if_false, Outcome.map_eq_ok] at h
  obtain ⟨expanded, h, rfl⟩ := h
  simp only [Selection.expand, Outcome.bind_eq_ok] at h
  obtain ⟨_, -, h⟩ := h
  exact (Selection.over_ofPaths hk hc h).restrict a

/-- The aggregates are some of those that were asked for, in their order. -/
theorem sublist_planAggregate {aggregate kept : Named Aggregate}
    (h : planAggregate c a aggregate = .ok kept) : kept.Sublist aggregate := by
  induction aggregate generalizing kept with
  | nil =>
      cases h
      exact .refl _
  | cons first aggregate ih =>
      have hkeep (h : (do return first :: (← planAggregate c a aggregate)) = Except.ok kept) :
          kept.Sublist (first :: aggregate) := by
        obtain ⟨rest, hrest, h⟩ := Outcome.bind_eq_ok.1 h
        obtain rfl := Outcome.pure_eq_ok.1 h
        exact (ih hrest).cons_cons first
      rw [planAggregate] at h
      split at h
      · exact hkeep h
      · split at h
        · cases h
        · split at h
          · cases h
          · split at h
            · exact hkeep h
            · exact (ih h).cons first

/-- The labels of aggregates are those that were asked for. -/
theorem names_planAggregate {aggregate kept : Named Aggregate}
    (h : planAggregate c a aggregate = .ok kept) {label : String} (hlabel : label ∈ kept.names) :
    label ∈ aggregate.names :=
  ((sublist_planAggregate h).map Prod.fst).subset hlabel

/-- The plan under which nothing matches has no names. -/
theorem over_emptyPlan (name : String) (a : Allowlist) (now : DateTime) :
    (emptyPlan name a now).Over P where
  selection _ := .node [] [] (by simp) (by simp) (by simp)
  sortColumns _ := by simp [emptyPlan]
  sortLabels h := by cases h
  search := by simp [emptyPlan]
  groups := by simp [emptyPlan]
  groupLabels := by simp [emptyPlan]
  aggregates := by simp [emptyPlan]
  labels := by simp [emptyPlan]

/-- The names that group keys, aggregates and a search have are declared ones. -/
theorem over_made {grant : Grant} {resolver : Resolver} {p : Plan} {f : Option Filter}
    {related : Named Filter} (hc : c.Over P)
    (hpart : ∀ name part, P name → P (GroupKey.label ⟨name, some part⟩))
    (hp : p.Made r reader c grant resolver f related) :
    (∀ key ∈ p.groupBy, P key.field ∧ P key.label) ∧
    (∀ entry ∈ p.aggregate, entry.2.field ≠ Aggregate.allRows → P entry.2.field) ∧
    ∀ s, p.search = some s → ∀ name ∈ s.fields, P name := by
  refine ⟨fun key hkey => ?_, fun entry => over_planAggregate hc hp.aggregate,
    fun s hs name hname => over_planSearch hc (hs ▸ hp.search) hname⟩
  have hfield := over_planGroups hc hp.groupBy hkey
  obtain ⟨field, _ | part⟩ := key
  · exact ⟨hfield, hfield⟩
  · exact ⟨hfield, hpart field part hfield⟩

/-- **The names in a plan** are declared ones, those of date parts of declared ones, and labels of
aggregates. -/
theorem over_plan {grant : Grant} {resolver : Resolver} {p : Plan} (hk : reader.catalog.Over P)
    (hpart : ∀ name part, P name → P (GroupKey.label ⟨name, some part⟩))
    (hlabels : ∀ label ∈ p.aggregate.names, P label) (h : r.plan reader grant resolver = .ok p) :
    p.Over P := by
  cases hd : grant.denied with
  | true =>
      obtain ⟨c, -, rfl⟩ := plan_of_denied hd h
      exact over_emptyPlan _ _ _
  | false =>
      obtain ⟨c, f, related, hfound, hp⟩ := made_of_plan hd h
      have hkind := hp.isAggregate_eq
      have hc := hk.find hfound
      obtain ⟨hgroups, haggregates, hsearch⟩ := over_made hc hpart hp
      constructor
      case selection => exact fun hr => over_planSelection hk hc (hkind ▸ hr) hp.selection
      case sortColumns =>
        intro hr key hkey name hname
        have hs := hp.sort
        simp only [planOrder, hkind ▸ hr, Bool.false_eq_true, if_false] at hs
        exact over_planSort hk hc hs hkey hname
      case sortLabels =>
        intro hr key hkey
        rcases sort_of_isAggregate hp (hkind ▸ hr) hkey with hgroup | haggregate
        · obtain ⟨g, hg, heq⟩ := List.mem_map.1 hgroup
          exact heq ▸ (hgroups g hg).2
        · exact hlabels _ haggregate
      case search => exact hsearch
      case groups => exact fun key hkey => (hgroups key hkey).1
      case groupLabels => exact fun key hkey => (hgroups key hkey).2
      case aggregates => exact haggregates
      case labels => exact fun entry hentry => hlabels _ (List.mem_map_of_mem hentry)

/-- A plan has the labels of its request at most. -/
theorem names_plan {grant : Grant} {resolver : Resolver} {p : Plan}
    (h : r.plan reader grant resolver = .ok p) {label : String}
    (hlabel : label ∈ p.aggregate.names) : label ∈ r.aggregate.names := by
  cases hd : grant.denied with
  | true =>
      obtain ⟨c, -, rfl⟩ := plan_of_denied hd h
      cases hlabel
  | false =>
      obtain ⟨c, f, related, -, hp⟩ := made_of_plan hd h
      exact names_planAggregate hp.aggregate hlabel

end Request

namespace Plan

variable {p : Plan} {n m : Alias}

/-- What must hold of the base row, part by part. -/
theorem exists_of_conditions {ps : List Predicate} (h : p.conditions k c n = .ok (ps, m)) :
    ∃ own l related, p.filter.predicate k c baseAlias n = .ok (own, l) ∧
      relationPredicates k c p.relConditions l = .ok (related, m) ∧
      ps = own :: related ++ (p.search.map searchPredicate).toList ++
        if c.paranoid then [.test (.alive baseAlias)] else [] := by
  obtain ⟨own, l, hown, h⟩ := Build.bind_eq_ok.1 h
  obtain ⟨related, _, hrelated, h⟩ := Build.bind_eq_ok.1 h
  obtain ⟨rfl, rfl⟩ := Build.pure_eq_ok.1 h
  exact ⟨own, l, related, hown, hrelated, rfl⟩

theorem over_searchPredicate {s : Search} (h : ∀ name ∈ s.fields, P name) :
    (searchPredicate s).Over P := by
  rw [searchPredicate]
  split
  · exact .constant false
  · refine .disj _ (List.forall_mem_map.2 fun name hname => .test _ ⟨h name hname, ?_⟩)
    exact fun _ hcast => nomatch hcast

variable (hk : k.Over P) (hc : c.Over P) (hp : p.Over P)

include hk hc hp

theorem over_conditions {ps : List Predicate} (h : p.conditions k c n = .ok (ps, m)) :
    ∀ q ∈ ps, q.Over P := by
  obtain ⟨own, l, related, hown, hrelated, rfl⟩ := exists_of_conditions h
  intro q hq
  rcases List.mem_append.1 hq with hq | hq
  · rcases List.mem_append.1 hq with hq | hq
    · rcases List.mem_cons.1 hq with rfl | hq
      · exact over_predicate hk hc hown
      · exact over_relationPredicates hk hc hrelated q hq
    · obtain ⟨s, hs, rfl⟩ := Option.map_eq_some_iff.1 (Option.mem_toList.1 hq)
      exact over_searchPredicate (hp.search s hs)
  · exact over_alive hk hq

omit hp in
/-- A sort path leads through joins to the column at its end. -/
theorem over_sorting {path : List String} {row : Alias} {s : Sorting}
    (hlast : ∀ name, path.getLast? = some name → P name) (hpath : path ≠ [])
    (h : sorting k path c row n = .ok (s, m)) : s.Over P := by
  induction path, c, row using sorting.induct generalizing n m s with
  | case1 c row => exact absurd rfl hpath
  | case2 name c row =>
      obtain ⟨rfl, -⟩ := Build.pure_eq_ok.1 h
      exact .column _ (hlast name rfl)
  | case3 relation rest c row hrest ih =>
      rw [sorting] at h
      · obtain ⟨⟨j, target⟩, _, hjoin, h⟩ := Build.bind_eq_ok.1 h
        obtain ⟨behind, _, hbehind, h⟩ := Build.bind_eq_ok.1 h
        obtain ⟨rfl, -⟩ := Build.pure_eq_ok.1 h
        obtain ⟨hj, htarget⟩ := over_joinRelation hk hc hjoin
        have hend : ∀ name, rest.getLast? = some name → P name := fun name hname =>
          hlast name (by rw [List.getLast?_cons, hname]; rfl)
        exact .behind j behind hj (ih j target htarget hend hrest hbehind)
      · exact hrest

omit hp in
theorem over_sortOrders {sort : List SortKey} {orders : List Order}
    (hsort : ∀ key ∈ sort, ∀ name, (Text.split '.' key.field).getLast? = some name → P name)
    (h : sortOrders k c sort n = .ok (orders, m)) : ∀ o ∈ orders, o.Over P := by
  induction sort generalizing n m orders with
  | nil =>
      obtain ⟨rfl, -⟩ := Build.pure_eq_ok.1 h
      exact List.forall_mem_nil _
  | cons key sort ih =>
      obtain ⟨hkey, hsort⟩ := List.forall_mem_cons.1 hsort
      obtain ⟨s, _, hs, h⟩ := Build.bind_eq_ok.1 h
      obtain ⟨rest, _, hrest, h⟩ := Build.bind_eq_ok.1 h
      obtain ⟨rfl, -⟩ := Build.pure_eq_ok.1 h
      have hsplit : Text.split '.' key.field ≠ [] := by
        simpa [Text.split] using Text.splitChars_ne_nil '.' key.field.toList
      have hrow := over_sorting hk hc hkey hsplit hs
      exact List.forall_mem_cons.2 ⟨.row s key.direction hrow, ih hsort hrest⟩

theorem over_orders (hkind : p.isAggregate = false) {orders : List Order}
    (h : p.orders k c n = .ok (orders, m)) : ∀ o ∈ orders, o.Over P := by
  obtain ⟨sorted, _, hsorted, h⟩ := Build.bind_eq_ok.1 h
  obtain ⟨rfl, -⟩ := Build.pure_eq_ok.1 h
  have hgiven {given : List Order} (h : ∀ o ∈ given, o.Over P) :
      ∀ o ∈ if given.isEmpty then
          [Order.row (.column ⟨baseAlias, c.primaryKey⟩) .ascending] else given, o.Over P := by
    intro o ho
    split at ho
    · rw [List.mem_singleton.1 ho]
      exact .row _ _ (.column _ (hc.primaryKey hk.reserved))
    · exact h o ho
  refine hgiven fun o ho => ?_
  rcases List.mem_append.1 ho with ho | ho
  · split at ho
    · next s hs =>
        split at ho
        · rw [List.mem_singleton.1 ho]
          exact .rank _ _ (List.forall_mem_map.2 (hp.search s hs))
        · cases ho
    · cases ho
  · exact over_sortOrders hk hc (hp.sortColumns hkind) hsorted o ho

omit hk hc in
theorem over_groupOf : ∀ g ∈ p.groupBy.map groupOf, P g.name := by
  refine List.forall_mem_map.2 fun key hkey => ?_
  have hfield := hp.groups key hkey
  unfold groupOf
  split <;> exact hfield

omit hk hc in
theorem over_aggregateOutputs : ∀ entry ∈ p.aggregateOutputs, P entry.1 ∧ entry.2.Over P := by
  intro entry hentry
  rcases List.mem_append.1 hentry with hentry | hentry
  · obtain ⟨key, hkey, rfl⟩ := List.mem_map.1 hentry
    exact ⟨hp.groupLabels key hkey, .group _ (over_groupOf hp _ (List.mem_map_of_mem hkey))⟩
  · obtain ⟨labelled, hlabelled, rfl⟩ := List.mem_map.1 hentry
    refine ⟨hp.labels labelled hlabelled, .aggregate _ _ fun column hcolumn => ?_⟩
    split at hcolumn
    · cases hcolumn
    · next hfield =>
        cases hcolumn
        exact hp.aggregates labelled hlabelled hfield

omit hc in
/-- **The names in the statement that reads the rows of a plan.** -/
theorem over_select {s : Select} (h : p.select k = .ok s) : s.Over P := by
  obtain ⟨c, hfound, h⟩ := Outcome.bind_eq_ok.1 h
  have hc := hk.find hfound
  obtain ⟨⟨built, _⟩, hbuilt, h⟩ := Outcome.bind_eq_ok.1 h
  obtain rfl := Outcome.pure_eq_ok.1 h
  split at hbuilt
  · next hkind =>
      obtain ⟨conditions, _, hconditions, hbuilt⟩ := Build.bind_eq_ok.1 hbuilt
      obtain ⟨rfl, -⟩ := Build.pure_eq_ok.1 hbuilt
      have houtputs := over_aggregateOutputs hp
      exact ⟨fun e he => (houtputs e he).1, fun e he => (houtputs e he).2, hc.tableName,
        over_conditions hk hc hp hconditions, over_groupOf hp,
        List.forall_mem_map.2 fun key hkey => .output _ _ (hp.sortLabels hkind key hkey)⟩
  · next hkind =>
      rw [Bool.not_eq_true] at hkind
      obtain ⟨outputs, _, houtputs, hbuilt⟩ := Build.bind_eq_ok.1 hbuilt
      obtain ⟨conditions, _, hconditions, hbuilt⟩ := Build.bind_eq_ok.1 hbuilt
      obtain ⟨order, _, horder, hbuilt⟩ := Build.bind_eq_ok.1 hbuilt
      obtain ⟨rfl, -⟩ := Build.pure_eq_ok.1 hbuilt
      have houtput := over_selectionOutputs hk hc (hp.selection hkind) houtputs
      exact ⟨fun e he => (houtput e he).1, fun e he => (houtput e he).2, hc.tableName,
        over_conditions hk hc hp hconditions, List.forall_mem_nil _,
        over_orders hk hc hp hkind horder⟩

omit hc in
/-- **The names in the statement that counts the rows of a plan.** -/
theorem over_count {s : Count} (h : p.count k = .ok s) : s.Over P := by
  obtain ⟨c, hfound, h⟩ := Outcome.bind_eq_ok.1 h
  have hc := hk.find hfound
  split at h
  · obtain rfl := Outcome.pure_eq_ok.1 h
    exact .one
  · obtain ⟨⟨conditions, _⟩, hconditions, h⟩ := Outcome.bind_eq_ok.1 h
    have hall := over_conditions hk hc hp hconditions
    obtain rfl := Outcome.pure_eq_ok.1 h
    split
    · exact .rows _ _ hc.tableName hall
    · exact .groups _ _ _ hc.tableName hall (over_groupOf hp)

end Plan

end Warden
