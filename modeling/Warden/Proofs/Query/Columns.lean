import Mathlib.Data.List.Nodup
import Warden.Proofs.Query.Names
import Warden.Query.Projection

/-! # The columns of aggregates

The columns of a plan for aggregates are the labels of its group keys and of its aggregates. Nothing
compares them. Group keys may be given twice, a field may be spelled like the label of a date part,
and an aggregate may have the label of a group key. These are the only ways for two columns to have
one name (**`nodup_labels_iff`**), because the label of a date part is the label of no other one
(**`GroupKey.label_eq_iff`**). A row becomes a mapping from names to values, and it keeps all its
values just if the names are distinct (**`aggregate_columns_distinct_iff`**). -/

namespace Warden

open Sql

/-! ## Labels of group keys -/

theorem DatePart.underscore_notMem_name (part : DatePart) : '_' ∉ part.name.toList := by
  cases part <;> decide

namespace GroupKey

variable {a b : GroupKey}

/-- The first key is a field that is spelled like the label of the second one, a date part. -/
def Mimics (a b : GroupKey) : Prop :=
  a.part = none ∧ b.part.isSome = true ∧ a.field = b.label

theorem label_of_part_eq_none (h : a.part = none) : a.label = a.field := by
  rw [label, h]

theorem toList_label {part : DatePart} (h : a.part = some part) :
    a.label.toList = a.field.toList ++ '_' :: part.name.toList := by
  rw [label, h]
  simp

/-- Two date parts have one label only if they are the same: what follows the last underscore is the
name of the part. -/
theorem eq_of_label_eq {m n : DatePart} (ha : a.part = some m) (hb : b.part = some n)
    (h : a.label = b.label) : a = b := by
  have hchars := congrArg String.toList h
  rw [toList_label ha, toList_label hb] at hchars
  have hsame : a.field.toList = b.field.toList ∧ m.name.toList = n.name.toList := by
    rcases List.append_eq_append_iff.1 hchars with
      ⟨between, hfield, hrest⟩ | ⟨between, hfield, hrest⟩
    · cases between with
      | nil => exact ⟨by simpa using hfield.symm, by simpa using hrest⟩
      | cons c between =>
          obtain ⟨-, hname⟩ := List.cons_eq_cons.1 hrest
          exact absurd (by simp [hname]) m.underscore_notMem_name
    · cases between with
      | nil => exact ⟨by simpa using hfield, by simpa using hrest.symm⟩
      | cons c between =>
          obtain ⟨-, hname⟩ := List.cons_eq_cons.1 hrest
          exact absurd (by simp [hname]) n.underscore_notMem_name
  have hpart : m = n := by
    have hname := String.toList_inj.1 hsame.2
    revert hname
    cases m <;> cases n <;> decide
  have hfield := String.toList_inj.1 hsame.1
  obtain ⟨field, part⟩ := a
  obtain ⟨field', part'⟩ := b
  cases ha
  cases hb
  exact congrArg₂ GroupKey.mk hfield (congrArg some hpart)

/-- **Two keys have one label if they are the same**, or if one is a field that is spelled like the
label of the other. -/
theorem label_eq_iff : a.label = b.label ↔ a = b ∨ a.Mimics b ∨ b.Mimics a := by
  constructor
  · intro h
    cases ha : a.part with
    | none =>
        rw [label_of_part_eq_none ha] at h
        cases hb : b.part with
        | none =>
            rw [label_of_part_eq_none hb] at h
            cases a
            cases b
            cases ha
            cases hb
            exact .inl (congrArg (GroupKey.mk · none) h)
        | some n => exact .inr (.inl ⟨ha, by rw [hb]; rfl, h⟩)
    | some m =>
        cases hb : b.part with
        | none =>
            rw [label_of_part_eq_none hb] at h
            exact .inr (.inr ⟨hb, by rw [ha]; rfl, h.symm⟩)
        | some n => exact .inl (eq_of_label_eq ha hb h)
  · rintro (rfl | ⟨ha, -, h⟩ | ⟨hb, -, h⟩)
    · rfl
    · rw [label_of_part_eq_none ha, h]
    · rw [label_of_part_eq_none hb, h]

/-- The labels of keys are distinct if the keys are, and none is spelled like another one. -/
theorem nodup_labels_iff {keys : List GroupKey} : (keys.map label).Nodup ↔
    keys.Nodup ∧ ∀ a ∈ keys, ∀ b ∈ keys, ¬ a.Mimics b := by
  constructor
  · intro h
    have hkeys := h.of_map
    refine ⟨hkeys, fun a ha b hb hab => ?_⟩
    have hsame := List.inj_on_of_nodup_map h ha hb (label_eq_iff.2 (.inr (.inl hab)))
    obtain ⟨hnone, hsome, -⟩ := hab
    rw [← hsame, hnone] at hsome
    cases hsome
  · rintro ⟨hkeys, hmimics⟩
    refine (List.nodup_map_iff_inj_on hkeys).2 fun a ha b hb hab => ?_
    rcases label_eq_iff.1 hab with hsame | h | h
    · exact hsame
    · exact absurd h (hmimics a ha b hb)
    · exact absurd h (hmimics b hb a ha)

end GroupKey

/-! ## Rows as mappings -/

/-- The mapping that a row of a result becomes: its values under the names of the columns, a later
one in the place of an earlier one under the same name. -/
def mappedRow (columns : List String) (values : List Value) : Record :=
  Named.ofEntries (columns.zip values)

variable {columns : List String} {values : List Value}

/-- A mapping has all values of the row just if the columns have different names. -/
theorem mappedRow_eq_zip_iff (h : values.length = columns.length) :
    mappedRow columns values = columns.zip values ↔ columns.Nodup := by
  have hnames : Named.names (columns.zip values) = columns := Named.names_zip h
  constructor
  · intro hall
    have hempty : (Named.names ([] : Record)).Nodup := List.nodup_nil
    have hnodup : (mappedRow columns values).names.Nodup := Named.nodup_names_putAll hempty _
    rwa [hall, hnames] at hnodup
  · intro hcolumns
    rw [← hnames] at hcolumns
    exact Named.ofEntries_of_nodup hcolumns

/-- The columns of a row that has just these are all of it. -/
theorem pickRow_of_nodup {row : Record} (h : row.names.Nodup) :
    pickRow row.names (.record row) = .ok row := by
  have hall : (row.names.filterMap fun c => (row.find? c).map fun v => (c, v)) = row := by
    rw [Named.names, List.filterMap_map]
    have hentry : ∀ entry ∈ row, (((fun c => (row.find? c).map fun v => (c, v)) ∘ Prod.fst) entry :
        Option (String × Value)) = some entry := by
      rintro ⟨name, v⟩ hmem
      simp [Named.find?_of_mem h hmem]
    rw [List.filterMap_congr hentry, List.filterMap_some]
  rw [pickRow, hall, Named.ofEntries_of_nodup h]

/-- **No value of a row is lost on the way to the caller** just if the columns have different
names. -/
theorem pickRow_mappedRow_iff (h : values.length = columns.length) :
    pickRow columns (.record (mappedRow columns values)) = .ok (columns.zip values) ↔
      columns.Nodup := by
  have hnames : Named.names (columns.zip values) = columns := Named.names_zip h
  constructor
  · intro hpick
    -- whatever is picked is a mapping
    have hempty : (Named.names ([] : Record)).Nodup := List.nodup_nil
    have hnodup := Named.nodup_names_putAll hempty
      (columns.filterMap fun c => (Named.find? (mappedRow columns values) c).map fun v => (c, v))
    rw [← Named.ofEntries_eq_putAll, Except.ok.inj hpick, hnames] at hnodup
    exact hnodup
  · intro hcolumns
    rw [(mappedRow_eq_zip_iff h).2 hcolumns]
    rw [← hnames] at hcolumns
    have hpick := pickRow_of_nodup hcolumns
    rwa [hnames] at hpick

/-! ## Plans for aggregates -/

namespace Plan

variable {k : Catalog} {p : Plan}

/-- The statement of a plan for aggregates returns its group keys and aggregates, and is sorted by
their labels. -/
theorem select_of_isAggregate (hp : p.isAggregate = true) {s : Select} (h : p.select k = .ok s) :
    ∃ c conditions m, k.find p.collection = .ok c ∧
      p.conditions k c baseAlias = .ok (conditions, m) ∧
      s = {
        outputs := p.aggregateOutputs, table := c.tableName, conditions
        groups := p.groupBy.map groupOf
        order := p.sort.map fun key => .output key.field key.direction
        limit := p.limit, offset := p.offset } := by
  obtain ⟨c, hc, h⟩ := Outcome.bind_eq_ok.1 h
  obtain ⟨⟨built, m⟩, hbuilt, h⟩ := Outcome.bind_eq_ok.1 h
  obtain rfl := Outcome.pure_eq_ok.1 h
  rw [if_pos hp] at hbuilt
  obtain ⟨conditions, _, hconditions, hbuilt⟩ := Build.bind_eq_ok.1 hbuilt
  obtain ⟨rfl, rfl⟩ := Build.pure_eq_ok.1 hbuilt
  exact ⟨c, conditions, _, hc, hconditions, rfl⟩

theorem names_aggregateOutputs (p : Plan) :
    p.aggregateOutputs.map Prod.fst = p.groupBy.map GroupKey.label ++ p.aggregate.names := by
  simp [aggregateOutputs, Named.names, Function.comp_def]

end Plan

/-- **Columns of aggregates have different names only by the request.** Take the plan of any request
for aggregates, each under a label of its own, under any grant. Its columns are the labels of the
visible group keys and then those of the visible aggregates.

* The columns have different names iff no key is given twice, no key is a field that is spelled like
  the label of a date part among the keys, and no aggregate has the label of a key.
* This is just when a row as a mapping still has all its values, and just when the caller is given
  all of them.
* If it is so, every key of the order names exactly one output of the statement. -/
theorem aggregate_columns_distinct_iff {r : Request} {reader : FilterReader} {grant : Grant}
    {resolver : Resolver} {p : Plan} (hr : r.isAggregate = true)
    (hlabels : r.aggregate.names.Nodup) (h : r.plan reader grant resolver = .ok p) :
    p.selection.columns = p.groupBy.map GroupKey.label ++ p.aggregate.names ∧
    (p.selection.columns.Nodup ↔ p.groupBy.Nodup ∧
      (∀ a ∈ p.groupBy, ∀ b ∈ p.groupBy, ¬ a.Mimics b) ∧
      ∀ key ∈ p.groupBy, key.label ∉ p.aggregate.names) ∧
    (∀ values : List Value, values.length = p.selection.columns.length →
      (mappedRow p.selection.columns values = p.selection.columns.zip values ↔
        p.selection.columns.Nodup) ∧
      (pickRow p.selection.columns (.record (mappedRow p.selection.columns values)) =
        .ok (p.selection.columns.zip values) ↔ p.selection.columns.Nodup)) ∧
    (p.selection.columns.Nodup → ∀ k s, p.select k = .ok s → ∀ key ∈ p.sort,
      (s.outputs.map Prod.fst).count key.field = 1) := by
  obtain ⟨hcolumns, haggregate, hsort⟩ : p.selection.columns =
      p.groupBy.map GroupKey.label ++ p.aggregate.names ∧ p.aggregate.names.Nodup ∧
        ∀ key ∈ p.sort, p.isAggregate = true ∧ key.field ∈ p.selection.columns := by
    cases hd : grant.denied with
    | true =>
        obtain ⟨c, -, rfl⟩ := Request.plan_of_denied hd h
        exact ⟨rfl, List.nodup_nil, List.forall_mem_nil _⟩
    | false =>
        obtain ⟨c, f, related, -, hp⟩ := Request.made_of_plan hd h
        have hselection := Request.selection_of_isAggregate hp hr
        have hsublist := (Request.sublist_planAggregate hp.aggregate).map Prod.fst
        refine ⟨by rw [hselection]; rfl, hlabels.sublist hsublist, fun key hkey => ?_⟩
        refine ⟨hp.isAggregate_eq.trans hr, ?_⟩
        rw [hselection]
        exact List.mem_append.2 (Request.sort_of_isAggregate hp hr hkey)
  refine ⟨hcolumns, ?_, fun values hvalues => ⟨mappedRow_eq_zip_iff hvalues,
    pickRow_mappedRow_iff hvalues⟩, ?_⟩
  · have hapart (key : GroupKey) :
        (∀ label ∈ p.aggregate.names, key.label ≠ label) ↔ key.label ∉ p.aggregate.names :=
      ⟨fun hne hmem => hne _ hmem rfl, fun hmem label hlabel heq => hmem (heq ▸ hlabel)⟩
    rw [hcolumns, List.nodup_append, GroupKey.nodup_labels_iff, and_assoc,
      and_iff_right haggregate, List.forall_mem_map]
    simp only [hapart]
  · intro hnodup k s hs key hkey
    obtain ⟨hp, hmem⟩ := hsort key hkey
    obtain ⟨_, _, _, -, -, rfl⟩ := Plan.select_of_isAggregate hp hs
    rw [Plan.names_aggregateOutputs, ← hcolumns]
    exact List.count_eq_one_of_mem hnodup hmem

namespace Sample

/-- A request for the number of posts by group keys, under a label. -/
def countedBy (label : String) (groupBy : List GroupKey) : Request :=
  { Request.all "posts" 10 with
    aggregate := [(label, ⟨.count, Aggregate.allRows⟩)], groupBy, sort := [⟨label, .descending⟩] }

end Sample

/-- The number of posts by title and author has three columns, and the order names one of them. -/
theorem aggregate_columns_distinct_iff_counted :
    (Sample.countedBy "n" [⟨"title", none⟩, ⟨"author_id", none⟩]).isAggregate = true ∧
    (Named.names [("n", Aggregate.mk .count Aggregate.allRows)]).Nodup ∧
    ∃ p, (Sample.countedBy "n" [⟨"title", none⟩, ⟨"author_id", none⟩]).plan Sample.reader
        Grant.admin Sample.resolver = .ok p ∧
      p.selection.columns = ["title", "author_id", "n"] ∧ p.selection.columns.Nodup ∧
      ∃ s, p.select Sample.reader.catalog = .ok s ∧ (s.outputs.map Prod.fst).count "n" = 1 := by
  have hr : (Sample.countedBy "n" [⟨"title", none⟩, ⟨"author_id", none⟩]).isAggregate = true := rfl
  have hlabels : (Named.names [("n", Aggregate.mk .count Aggregate.allRows)]).Nodup := by decide
  obtain ⟨p, hp, hcolumns, hsort, s, hs⟩ : ∃ p,
      (Sample.countedBy "n" [⟨"title", none⟩, ⟨"author_id", none⟩]).plan Sample.reader Grant.admin
        Sample.resolver = .ok p ∧ p.selection.columns = ["title", "author_id", "n"] ∧
      p.sort = [⟨"n", .descending⟩] ∧ ∃ s, p.select Sample.reader.catalog = .ok s :=
    ⟨_, rfl, rfl, rfl, _, rfl⟩
  obtain ⟨-, -, -, hone⟩ := aggregate_columns_distinct_iff hr hlabels hp
  have hnodup : p.selection.columns.Nodup := by
    rw [hcolumns]
    decide
  refine ⟨hr, hlabels, p, hp, hcolumns, hnodup, s, hs, ?_⟩
  exact hone hnodup _ s hs ⟨"n", .descending⟩ (by simp [hsort])

/-- Posts that are grouped by their title twice have it as a column twice, and a number of posts
that is called title takes the place of the title. -/
theorem columns_collide :
    (∃ p, (Sample.countedBy "n" [⟨"title", none⟩, ⟨"title", none⟩]).plan Sample.reader Grant.admin
        Sample.resolver = .ok p ∧ p.selection.columns = ["title", "title", "n"] ∧
      ¬ p.selection.columns.Nodup) ∧
    ∃ p, (Sample.countedBy "title" [⟨"title", none⟩]).plan Sample.reader Grant.admin
        Sample.resolver = .ok p ∧ p.selection.columns = ["title", "title"] ∧
      pickRow p.selection.columns
        (.record (mappedRow p.selection.columns [.text "t", .int 2])) =
          .ok [("title", .int 2)] ∧
      ∃ s, p.select Sample.reader.catalog = .ok s ∧
        (s.outputs.map Prod.fst).count "title" = 2 :=
  ⟨⟨_, rfl, rfl, by decide⟩, _, rfl, rfl, by rfl, _, rfl, by rfl⟩

end Warden
