import Warden.Query.Projection
import Warden.Proofs.Query.Expansion
import Warden.Proofs.Query.Validity

/-! # Selections and projections agree

An allowlist is used twice: a selection is cut down to it before the database is asked, and the rows
that come back are stripped of what it hides. The second use finds nothing left to do: a row of the
shape of what is selected stays as it is (**`projectRow_restrict`**). The first one hides no more
than it has to: a column is left iff it was selected and is allowed, although relations behind which
nothing is left go too (**`mem_paths_restrict_iff`**). Both together are
**`selection_and_projection_agree`**.

* **`Selection.Fits`** says that a selection selects fields and goes behind relations.
* **`Selection.Shaped`** says that a row has the shape of a selection. -/

namespace Warden

variable {k : Catalog} {c target : Collection} {a : Allowlist} {s : Selection} {name : String}
  {path : List String}

/-- No name is that of a field and of a relation of one collection. -/
def Catalog.NamesApart (k : Catalog) : Prop :=
  ∀ c ∈ k.collections, ∀ name, c.hasField name = true → c.hasRelation name = false

namespace Selection

/-! ## What is left of a selection -/

/-- A selection with a column somewhere is not empty. -/
theorem isEmpty_eq_false_of_mem_paths (h : path ∈ s.paths) : s.isEmpty = false := by
  obtain ⟨columns, relations⟩ := s
  cases columns with
  | cons => rfl
  | nil =>
      cases relations with
      | cons => rfl
      | nil => exact absurd h List.not_mem_nil

theorem restrict_all (s : Selection) : s.restrict .all = s := by
  obtain ⟨columns, relations⟩ := s
  rw [restrict]
  exact if_pos rfl

/-- Of the columns those are left that are allowed. -/
theorem mem_columns_restrict :
    name ∈ (s.restrict a).columns ↔ name ∈ s.columns ∧ a.allowsField name = true := by
  by_cases ha : a.isAll = true
  · rw [Allowlist.eq_all_of_isAll ha, restrict_all]
    simp
  · obtain ⟨columns, relations⟩ := s
    rw [restrict, if_neg ha]
    exact List.mem_filter

/-- What an allowlist leaves of a selection behind a relation, if anything. -/
def left? (a : Allowlist) (entry : String × Selection) : Option (String × Selection) :=
  if a.allowsRelation entry.1 && !(entry.2.restrict (a.forRelation entry.1)).isEmpty then
    some (entry.1, entry.2.restrict (a.forRelation entry.1))
  else none

theorem restrictRelations_eq_filterMap (relations : List (String × Selection)) :
    restrictRelations a relations = relations.filterMap (left? a) := by
  induction relations with
  | nil => rfl
  | cons entry relations ih =>
      obtain ⟨other, behind⟩ := entry
      rw [restrictRelations, List.filterMap_cons, left?, ih]
      cases a.allowsRelation other with
      | false => rfl
      | true => cases hempty : (behind.restrict (a.forRelation other)).isEmpty <;> simp [hempty]

/-- Of the selections behind relations those are left that are allowed and not emptied. -/
theorem mem_restrictRelations {relations : List (String × Selection)} {left : Selection} :
    (name, left) ∈ restrictRelations a relations ↔
      ∃ behind, (name, behind) ∈ relations ∧ a.allowsRelation name = true ∧
        left = behind.restrict (a.forRelation name) ∧ left.isEmpty = false := by
  rw [restrictRelations_eq_filterMap, List.mem_filterMap]
  constructor
  · rintro ⟨⟨other, behind⟩, hentry, hleft⟩
    obtain ⟨hkept, hleft⟩ := Option.ite_none_right_eq_some.1 hleft
    cases hleft
    rw [Bool.and_eq_true, Bool.not_eq_true'] at hkept
    exact ⟨behind, hentry, hkept.1, rfl, hkept.2⟩
  · rintro ⟨behind, hentry, hallowed, rfl, hleft⟩
    refine ⟨(name, behind), hentry, ?_⟩
    rw [left?, hallowed, hleft]
    rfl

/-- A selection behind a relation that is left was allowed, and is what is left there. -/
theorem exists_of_mem_relations_restrict {left : Selection}
    (h : (name, left) ∈ (s.restrict a).relations) :
    ∃ behind, (name, behind) ∈ s.relations ∧ a.allowsRelation name = true ∧
      left = behind.restrict (a.forRelation name) := by
  by_cases ha : a.isAll = true
  · rw [Allowlist.eq_all_of_isAll ha, restrict_all] at h
    rw [Allowlist.eq_all_of_isAll ha, Allowlist.forRelation_all]
    exact ⟨left, h, rfl, (restrict_all left).symm⟩
  · obtain ⟨columns, relations⟩ := s
    rw [restrict, if_neg ha] at h
    obtain ⟨behind, hbehind, hallowed, hleft, -⟩ := mem_restrictRelations.1 h
    exact ⟨behind, hbehind, hallowed, hleft⟩

/-- A selection behind an allowed relation is left if it has a column that is. -/
theorem mem_relations_restrict {behind : Selection} (h : (name, behind) ∈ s.relations)
    (hname : a.allowsRelation name = true)
    (hpath : path ∈ (behind.restrict (a.forRelation name)).paths) :
    (name, behind.restrict (a.forRelation name)) ∈ (s.restrict a).relations := by
  by_cases ha : a.isAll = true
  · rw [Allowlist.eq_all_of_isAll ha, Allowlist.forRelation_all, restrict_all, restrict_all]
    exact h
  · obtain ⟨columns, relations⟩ := s
    rw [restrict, if_neg ha]
    refine mem_restrictRelations.2 ⟨behind, h, hname, rfl, ?_⟩
    exact isEmpty_eq_false_of_mem_paths hpath

/-- A column is left of a selection iff it was selected and its path is allowed. -/
theorem mem_paths_restrict_iff :
    path ∈ (s.restrict a).paths ↔ path ∈ s.paths ∧ a.allowsSegments path = true := by
  induction path generalizing s a with
  | nil => exact iff_of_false (nil_notMem_paths _) fun h => nil_notMem_paths _ h.1
  | cons name tail ih =>
      by_cases htail : tail = []
      · rw [htail, mem_paths_singleton, mem_paths_singleton, mem_columns_restrict,
          Allowlist.allowsSegments_singleton]
      · rw [mem_paths_cons htail, mem_paths_cons htail, Allowlist.allowsSegments_cons name htail,
          Bool.and_eq_true]
        constructor
        · rintro ⟨left, hleft, hmem⟩
          obtain ⟨behind, hbehind, hallowed, rfl⟩ := exists_of_mem_relations_restrict hleft
          obtain ⟨hselected, hrest⟩ := ih.1 hmem
          exact ⟨⟨behind, hbehind, hselected⟩, hallowed, hrest⟩
        · rintro ⟨⟨behind, hbehind, hselected⟩, hallowed, hrest⟩
          have hmem := ih.2 ⟨hselected, hrest⟩
          exact ⟨_, mem_relations_restrict hbehind hallowed hmem, hmem⟩

/-! ## Selections that fit a collection -/

/-- The selection selects fields of the collection and goes behind its relations to collections
that exist. -/
inductive Fits (k : Catalog) : Collection → Selection → Prop where
  /-- The columns are fields, the relations have targets, and the selections there fit these. -/
  | intro {c : Collection} {s : Selection}
      (hcolumns : ∀ name ∈ s.columns, c.hasField name = true)
      (hreached : ∀ entry ∈ s.relations, ∃ target, targetOf k c entry.1 = .ok target)
      (hbehind : ∀ entry ∈ s.relations, ∀ target, targetOf k c entry.1 = .ok target →
        Fits k target entry.2) : Fits k c s

/-- A selection of paths fits the collection on which they were expanded. -/
theorem fits_ofPaths {fuel : Nat} {paths : List (List String)}
    (h : ofPaths k fuel c paths = .ok s) : s.Fits k c := by
  induction fuel generalizing c paths s with
  | zero =>
      cases h
      exact .intro (List.forall_mem_nil _) (List.forall_mem_nil _) (List.forall_mem_nil _)
  | succ fuel ih =>
      have hexp := expands_of_ofPaths h
      constructor
      · intro name hname
        obtain ⟨path, -, part, hpart, hcolumn⟩ := (hexp.columns name).1 hname
        exact (contributes_of_contribution hpart).hasField hcolumn
      · rintro ⟨name, behind⟩ hentry
        obtain ⟨target, -, htarget, -⟩ := hexp.relations name behind hentry
        exact ⟨target, htarget⟩
      · rintro ⟨name, behind⟩ hentry target htarget
        obtain ⟨_, _, hreached, hselected, -⟩ := hexp.relations name behind hentry
        obtain rfl := Except.ok.inj (htarget.symm.trans hreached)
        exact ih hselected

/-- What is left of a selection fits wherever the selection does. -/
theorem Fits.restrict (h : s.Fits k c) (a : Allowlist) : (s.restrict a).Fits k c := by
  induction h generalizing a with
  | intro hcolumns hreached _ ih =>
      constructor
      · exact fun name hname => hcolumns name (mem_columns_restrict.1 hname).1
      · rintro ⟨name, left⟩ hentry
        obtain ⟨behind, hbehind, -⟩ := exists_of_mem_relations_restrict hentry
        exact hreached (name, behind) hbehind
      · rintro ⟨name, left⟩ hentry target htarget
        obtain ⟨behind, hbehind, -, rfl⟩ := exists_of_mem_relations_restrict hentry
        exact ih (name, behind) hbehind target htarget _

/-! ## Rows of the shape of a selection -/

mutual

/-- The row has the columns and the relations of the selection and nothing else, with any values in
the columns. -/
inductive Shaped (k : Catalog) : Collection → Selection → Record → Prop where
  /-- The names are those that are selected, and behind each relation is what is selected there. -/
  | row {c : Collection} {s : Selection} {row : Record}
      (hnames : ∀ name, name ∈ row.names ↔ name ∈ s.columns ∨ name ∈ s.relations.names)
      (hbehind : ∀ name v, (name, v) ∈ row → ∀ behind, (name, behind) ∈ s.relations →
        ∀ relation target, c.relation? name = some relation →
          k.find? relation.target = some target → ShapedBehind k relation target behind v) :
    Shaped k c s row

/-- The value of a relation has the shape of the selection behind it. -/
inductive ShapedBehind (k : Catalog) : Relation → Collection → Selection → Value → Prop where
  /-- A relation to one row that has none. -/
  | absent {relation : Relation} {target : Collection} {behind : Selection}
      (hone : relation.isToOne = true) : ShapedBehind k relation target behind .null
  /-- The row of a relation to one. -/
  | one {relation : Relation} {target : Collection} {behind : Selection} {row : Record}
      (hone : relation.isToOne = true) (hrow : Shaped k target behind row) :
    ShapedBehind k relation target behind (.record row)
  /-- The rows of a relation to many. -/
  | many {relation : Relation} {target : Collection} {behind : Selection} {rows : List Record}
      (hmany : relation.isToOne = false) (hrows : ∀ row ∈ rows, Shaped k target behind row) :
    ShapedBehind k relation target behind (.list (rows.map .record))

end

end Selection

/-! ## Projected rows -/

namespace Catalog

variable {collection : String}

/-- A row of which everything is shown stays as it is. -/
theorem projectRow_eq_self {row : Record} (h : ∀ name v, (name, v) ∈ row →
    k.relation? collection name = none ∧ a.allowsField name = true ∨
      ∃ r, k.relation? collection name = some r ∧ a.allowsRelation name = true ∧
        k.projectRelated r.target (a.forRelation name) v = v) :
    k.projectRow collection a row = row := by
  induction row with
  | nil => rw [projectRow]
  | cons entry row ih =>
      obtain ⟨name, v⟩ := entry
      have hrow := ih fun name v hv => h name v (List.mem_cons_of_mem _ hv)
      rw [projectRow, hrow]
      rcases h name v List.mem_cons_self with ⟨hnone, hallowed⟩ | ⟨r, hr, hallowed, hv⟩
      · simp only [hnone, hallowed, if_true]
      · simp only [hr, hallowed, hv, if_true]

/-- Items that are no rows stay as they are. -/
theorem projectItems_cons_of_record? {v : Value} (h : v.record? = none) (vs : List Value) :
    k.projectItems collection a (v :: vs) = v :: k.projectItems collection a vs := by
  rw [projectItems]
  rintro entries rfl
  cases h

/-- Items stay as they are if the rows among them do. -/
theorem projectItems_eq_self {items : List Value}
    (h : ∀ row, .record row ∈ items → k.projectRow collection a row = row) :
    k.projectItems collection a items = items := by
  induction items with
  | nil => rfl
  | cons v items ih =>
      have hitems := ih fun row hrow => h row (List.mem_cons_of_mem _ hrow)
      cases v with
      | record row => rw [projectItems, h row List.mem_cons_self, hitems]
      | _ => rw [projectItems_cons_of_record? rfl, hitems]

/-- A row of the shape of what is left of a selection stays as it is. -/
theorem projectRow_restrict (hk : k.NamesApart) (hfits : s.Fits k c)
    (hc : k.find? c.name = some c) {row : Record} (hrow : (s.restrict a).Shaped k c row) :
    k.projectRow c.name a row = row := by
  induction hfits generalizing a row with
  | @intro c s hcolumns hreached _ ih =>
      cases hrow with
      | row hnames hbehind =>
          refine projectRow_eq_self fun name v hv => ?_
          have hrelation : k.relation? c.name name = c.relation? name := by
            rw [relation?, hc, Option.bind_some]
          rw [hrelation]
          rcases (hnames name).1 (List.mem_map_of_mem hv) with hname | hname
          · -- a column is a field, so its name is not that of a relation
            obtain ⟨hselected, hallowed⟩ := Selection.mem_columns_restrict.1 hname
            have hapart := hk c (List.mem_of_find?_eq_some hc) name (hcolumns name hselected)
            exact .inl ⟨by simpa [Collection.hasRelation] using hapart, hallowed⟩
          · obtain ⟨⟨other, left⟩, hleft, hother⟩ := List.mem_map.1 hname
            obtain rfl : other = name := hother
            obtain ⟨behind, hentry, hallowed, rfl⟩ :=
              Selection.exists_of_mem_relations_restrict hleft
            obtain ⟨target, htarget⟩ := hreached _ hentry
            obtain ⟨r, hr, hfound⟩ := Selection.targetOf_eq_ok.1 htarget
            refine .inr ⟨r, hr, hallowed, ?_⟩
            -- the rows behind the relation stay as they are
            have hname : target.name = r.target := by simpa using List.find?_some hfound
            have hstays {row : Record}
                (hrow : (behind.restrict (a.forRelation other)).Shaped k target row) :
                k.projectRow r.target (a.forRelation other) row = row := by
              rw [← hname]
              exact ih _ hentry target htarget (hname ▸ hfound) hrow
            cases hbehind other v hv _ hleft r target hr hfound with
            | absent => simp [projectRelated]
            | one _ hrow => rw [projectRelated, hstays hrow]
            | many _ hrows =>
                rw [projectRelated, projectItems_eq_self fun row hmem => ?_]
                obtain ⟨_, hrow, heq⟩ := List.mem_map.1 hmem
                exact hstays (hrows row (Value.record.inj heq ▸ hrow))

/-- Rows that each stay as they are stay so together. -/
theorem projectRows_eq_ok {rows : List Record}
    (h : ∀ row ∈ rows, k.projectRow collection a row = row) :
    k.projectRows collection a (rows.map .record) = .ok rows := by
  rw [projectRows]
  induction rows with
  | nil => rfl
  | cons row rows ih =>
      obtain ⟨hrow, hrows⟩ := List.forall_mem_cons.1 h
      rw [List.map_cons, List.mapM_cons, ih hrows]
      -- an allowlist without patterns is not applied at all
      by_cases ha : a.isAll = true
      · rw [if_pos ha]
        rfl
      · simp only [if_neg ha, hrow]
        rfl

end Catalog

/-! ## Plans -/

/-- The selection of a plan for rows is what the grant leaves of one that fits the collection. -/
theorem Request.exists_fits_of_plan {r : Request} {reader : FilterReader} {grant : Grant}
    {resolver : Resolver} {p : Plan} (hr : r.isAggregate = false)
    (h : r.plan reader grant resolver = .ok p) :
    ∃ (c : Collection) (s : Selection), reader.catalog.find? c.name = some c ∧
      p.collection = c.name ∧ p.allowlist = grant.allowlist ∧ s.Fits reader.catalog c ∧
      p.selection = s.restrict grant.allowlist := by
  cases hd : grant.denied with
  | true =>
      obtain ⟨c, hc, rfl⟩ := plan_of_denied hd h
      have hfound := Catalog.name_of_find hc ▸ Catalog.find?_of_find hc
      refine ⟨c, .node [] [], hfound, rfl, rfl,
        .intro (List.forall_mem_nil _) (List.forall_mem_nil _) (List.forall_mem_nil _), ?_⟩
      rw [Selection.restrict]
      split <;> rfl
  | false =>
      obtain ⟨c, _, _, hc, hp⟩ := made_of_plan hd h
      have hfound := Catalog.name_of_find hc ▸ Catalog.find?_of_find hc
      have hselection := hp.selection
      rw [planSelection, hr] at hselection
      obtain ⟨s, hs, hselection⟩ := Outcome.map_eq_ok.1 hselection
      obtain ⟨fuel, hpaths, -⟩ := Selection.exists_fuel_of_expand hs
      exact ⟨c, s, hfound, hp.collection, hp.allowlist, Selection.fits_ofPaths hpaths,
        hselection.symm⟩

/-- Rows of the shape of a plan's selection come out of the projection as they went in, and a column
is left of a selection iff it was selected and the allowlist allows its path. -/
theorem selection_and_projection_agree {r : Request} {reader : FilterReader} {grant : Grant}
    {resolver : Resolver} {p : Plan} (hk : reader.catalog.NamesApart)
    (hr : r.isAggregate = false) (h : r.plan reader grant resolver = .ok p) :
    (∃ c, reader.catalog.find? p.collection = some c ∧ p.allowlist = grant.allowlist ∧
      ∀ rows : List Record, (∀ row ∈ rows, p.selection.Shaped reader.catalog c row) →
        reader.catalog.projectRows p.collection p.allowlist (rows.map .record) = .ok rows) ∧
    ∀ (a : Allowlist) (s : Selection) (path : List String),
      (∀ segment ∈ path, '.' ∉ segment.toList) →
        (path ∈ (s.restrict a).paths ↔
          path ∈ s.paths ∧ a.allowsPath (Text.join "." path) = true) := by
  constructor
  · obtain ⟨c, s, hfound, hcollection, hallowlist, hfits, hselection⟩ :=
      Request.exists_fits_of_plan hr h
    rw [hcollection, hallowlist, hselection]
    refine ⟨c, hfound, rfl, fun rows hrows => Catalog.projectRows_eq_ok fun row hrow => ?_⟩
    exact Catalog.projectRow_restrict hk hfits hfound (hrows row hrow)
  · intro a s path hpath
    rw [Selection.mem_paths_restrict_iff]
    refine and_congr_right fun hmem => ?_
    have hne : path ≠ [] := fun hnil => Selection.nil_notMem_paths s (hnil ▸ hmem)
    have hsegments : Text.split '.' (Text.join "." path) = path := Text.split_join hne hpath
    rw [Allowlist.allowsPath, hsegments]

/-- A request for the titles of posts and all about their authors. -/
def Sample.browsing : Request :=
  { Request.all "posts" 5 with fields := some ["title", "author"] }

/-- Posts with the names of their authors, as they are selected and as they are returned. -/
theorem selection_and_projection_agree_browsing : ∃ p,
    Sample.browsing.plan Sample.reader Sample.titlesOnly Sample.resolver = .ok p ∧
    (∃ c, Sample.reader.catalog.find? p.collection = some c ∧
      p.allowlist = Sample.titlesOnly.allowlist ∧
      ∀ rows : List Record, (∀ row ∈ rows, p.selection.Shaped Sample.reader.catalog c row) →
        Sample.reader.catalog.projectRows p.collection p.allowlist (rows.map .record) = .ok rows) ∧
    ∀ (a : Allowlist) (s : Selection) (path : List String),
      (∀ segment ∈ path, '.' ∉ segment.toList) →
        (path ∈ (s.restrict a).paths ↔
          path ∈ s.paths ∧ a.allowsPath (Text.join "." path) = true) := by
  obtain ⟨p, hp⟩ : ∃ p,
      Sample.browsing.plan Sample.reader Sample.titlesOnly Sample.resolver = .ok p := ⟨_, rfl⟩
  have hapart : Sample.reader.catalog.NamesApart := fun c hc => (Sample.plainNames c hc).apart
  exact ⟨p, hp, selection_and_projection_agree hapart rfl hp⟩

end Warden
