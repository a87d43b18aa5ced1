import Warden.Proofs.Query.Names
import Warden.Proofs.Sql.Placeholder

/-! # Placeholders of statements that read

A statement that reads rows or counts them has no per cent sign around its values if none of the
names in it has one (`bare_select`, `bare_count`). Whatever a plan selects, sorts by and searches,
its values then line up with their placeholders. -/

namespace Warden.Sql

theorem bare_group {g : Group} (h : Bare g.name) : Bare g.sql := by
  cases g with
  | column c => exact bare_column h
  | part part c =>
      have hcolumn := bare_column (c := c) h
      cases part <;> simpa +decide [Group.sql, datePartKeyword] using hcolumn

theorem bare_aggregateSql {s : String} (h : Bare s) (function : AggregateFunction) :
    Bare (aggregateSql function s) := by
  cases function <;> simpa +decide [aggregateSql] using h

namespace Output

theorem forall_mem_writeMembers {members : List (String × Output)}
    (hnames : ∀ entry ∈ members, Bare entry.1)
    (hmembers : ∀ entry ∈ members, entry.2.write.Bare) : ∀ f ∈ writeMembers members, f.Bare := by
  induction members with
  | nil => exact List.forall_mem_nil _
  | cons entry members ih =>
      obtain ⟨hname, hnames⟩ := List.forall_mem_cons.1 hnames
      obtain ⟨hwrite, hmembers⟩ := List.forall_mem_cons.1 hmembers
      refine List.forall_mem_cons.2 ⟨?_, ih hnames hmembers⟩
      simpa +decide [bare_literal hname] using hwrite

/-- An output brings no per cent sign into the text around its values. -/
theorem bare_write {o : Output} (h : o.Over Bare) : o.write.Bare := by
  induction h with
  | column c h => simpa [write] using bare_column h
  | group g h => simpa [write] using bare_group h
  | aggregate function c h =>
      cases c with
      | none => simpa [write] using bare_aggregateSql (s := "*") (by decide) function
      | some column => simpa [write] using bare_aggregateSql (bare_column (h column rfl)) function
  | related j members condition single hj hnames _ hcondition ih =>
      have hobject : (Fragment.joined ", " (writeMembers members)).Bare :=
        Fragment.bare_joined (by decide) (forall_mem_writeMembers hnames ih)
      have hbehind : (Predicate.writeBehind j (Predicate.writeAll condition)).Bare :=
        Predicate.bare_writeBehind hj (Predicate.forall_mem_writeAll fun p hp =>
          Predicate.bare_write (hcondition p hp))
      cases single <;> simp +decide [write, hobject, hbehind]

end Output

/-- What rows are sorted by brings no per cent sign into the text around its values. -/
theorem bare_sorting {s : Sorting} (h : s.Over Bare) : s.write.Bare := by
  induction h with
  | column c h => simpa [Sorting.write] using bare_column h
  | behind j s hj _ ih =>
      have hbehind := Predicate.bare_writeBehind hj (List.forall_mem_nil _)
      simp +decide [Sorting.write, ih, hbehind]

theorem bare_order {o : Order} (h : o.Over Bare) : o.write.Bare := by
  have hdirection (direction : SortDirection) : Bare (directionKeyword direction) := by
    cases direction <;> decide
  cases h with
  | rank columns term h =>
      have hcolumns : Bare (String.intercalate ", " (columns.map fun c => c.sql ++ "::text")) := by
        refine bare_intercalate (by decide) (List.forall_mem_map.2 fun c hc => ?_)
        simpa +decide using bare_column (h c hc)
      simpa +decide [Order.write] using hcolumns
  | row s direction h => simp +decide [Order.write, bare_sorting h, hdirection]
  | output label direction h => simp +decide [Order.write, bare_identifier h, hdirection]

theorem bare_writeBase {table : String} {conditions : List Predicate} (htable : Bare table)
    (h : ∀ p ∈ conditions, p.Over Bare) : (writeBase table conditions).Bare := by
  simp +decide [writeBase, bare_tableSql htable, Predicate.bare_writeConditions h]

theorem bare_writeGroups {groups : List Group} (h : ∀ g ∈ groups, Bare g.name) :
    (writeGroups groups).Bare := by
  rw [writeGroups]
  split
  · exact Fragment.bare_nil
  · have hgroups : Bare (String.intercalate ", " (groups.map Group.sql)) :=
      bare_intercalate (by decide) (List.forall_mem_map.2 fun g hg => bare_group (h g hg))
    simpa +decide using hgroups

/-- A statement that reads rows has no per cent sign around its values. -/
theorem bare_select {s : Select} (h : s.Over Bare) : s.write.Bare := by
  have houtputs : (Fragment.joined ", "
      (s.outputs.map fun entry => entry.2.writeLabelled entry.1)).Bare := by
    refine Fragment.bare_joined (by decide) (List.forall_mem_map.2 fun entry hentry => ?_)
    simp +decide [Output.writeLabelled, Output.bare_write (h.outputs entry hentry),
      bare_identifier (h.labels entry hentry)]
  have horder : (Fragment.joined ", " (s.order.map Order.write)).Bare :=
    Fragment.bare_joined (by decide) (List.forall_mem_map.2 fun o ho => bare_order (h.order o ho))
  have hbase := bare_writeBase h.table h.conditions
  have hgroups := bare_writeGroups h.groups
  simp only [Select.write, Fragment.bare_append]
  refine ⟨⟨⟨⟨⟨⟨by simp +decide, houtputs⟩, hbase⟩, hgroups⟩, ?_⟩, ?_⟩, ?_⟩
  · exact Fragment.bare_ite Fragment.bare_nil (by simp +decide [horder])
  · exact Fragment.bare_ite (by simp +decide) Fragment.bare_nil
  · exact Fragment.bare_ite (by simp +decide) Fragment.bare_nil

/-- A statement that counts has no per cent sign around its values. -/
theorem bare_count {s : Count} (h : s.Over Bare) : s.write.Bare := by
  cases h with
  | one => simp +decide [Count.write]
  | rows table conditions htable hconditions =>
      simp +decide [Count.write, bare_writeBase htable hconditions]
  | groups table conditions keys htable hconditions hkeys =>
      simp +decide [Count.write, bare_writeBase htable hconditions, bare_writeGroups hkeys]

end Warden.Sql
