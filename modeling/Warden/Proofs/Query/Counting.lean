import Warden.Proofs.Query.Structure
import Warden.Proofs.Sql.Renumbering

/-! # What is counted is what is read

The statement that counts the rows of a plan is built from nothing but its conditions, so what is
selected, in which order and which page of it, makes no difference to it. The statement that reads
the rows builds the same conditions after its outputs, which number tables of their own: there the
tables of the conditions have greater numbers, and that is the whole difference
(**`count_asks_as_select`**). -/

namespace Warden

open Sql Build

variable {k : Catalog} {c : Collection} {p : Plan} {d : Nat}

namespace Sql

/-- The statement asks for the rows of the table under the conditions, in groups if there are keys;
before and behind that there is what it does with them. -/
def AsksFor (statement before : Fragment) (table : String) (conditions : List Predicate)
    (keys : List Group) (after : Fragment) : Prop :=
  statement = before ++ writeBase table conditions ++ writeGroups keys ++ after

/-- The values in a statement are those before its conditions, those in them, and those behind. -/
theorem AsksFor.parameters {statement before after : Fragment} {table : String}
    {conditions : List Predicate} {keys : List Group}
    (h : AsksFor statement before table conditions keys after) :
    statement.parameters = before.parameters ++
      (Predicate.writeConditions conditions).parameters ++ after.parameters := by
  have hgroups : (writeGroups keys).parameters = [] := by
    unfold writeGroups
    split <;> rfl
  rw [h]
  simp [writeBase, hgroups]

/-- A statement that reads rows asks for them. -/
theorem asksFor_select (s : Select) :
    AsksFor s.write
      (Fragment.ofText "SELECT " ++
        Fragment.joined ", " (s.outputs.map fun entry => entry.2.writeLabelled entry.1))
      s.table s.conditions s.groups
      ((if s.order.isEmpty then []
          else Fragment.ofText " ORDER BY " ++ Fragment.joined ", " (s.order.map Order.write)) ++
        (if 0 ≤ s.limit then Fragment.ofText " LIMIT " ++ Fragment.ofValue (.int s.limit)
          else []) ++
        if 0 < s.offset then Fragment.ofText " OFFSET " ++ Fragment.ofValue (.int s.offset)
          else []) := by
  simp only [AsksFor, Select.write, List.append_assoc]

end Sql

/-- The search is in the base table, whose number stays. -/
theorem renamed_searchPredicate (s : Search) :
    (searchPredicate s).renamed (later d) = searchPredicate s := by
  unfold searchPredicate
  split
  · rfl
  · rw [Predicate.renamed, Predicate.renamedAll_eq_map, List.map_map]
    rfl

theorem renamed_partPredicates (c : Collection) (own : Predicate) (related : List Predicate)
    (search : Option Search) :
    (partPredicates c own related search).map (Predicate.renamed (later d)) =
      partPredicates c (own.renamed (later d)) (related.map (Predicate.renamed (later d)))
        search := by
  have hsearch : (search.map searchPredicate).toList.map (Predicate.renamed (later d)) =
      (search.map searchPredicate).toList := by
    cases search with
    | none => rfl
    | some s => exact congrArg (fun q => [q]) (renamed_searchPredicate s)
  rw [partPredicates, partPredicates, List.map_append, List.map_append, List.map_cons, hsearch]
  split <;> rfl

/-- **The conditions of a plan** are renamed where they are built later. -/
theorem Plan.follows_conditions :
    Follows d (List.map (Predicate.renamed (later d))) (p.conditions k c) (p.conditions k c) := by
  refine (follows_predicate baseAlias p.filter).bind fun own => ?_
  refine (follows_relationPredicates p.relConditions).bind fun related => ?_
  have hparts := follows_pure (d := d) (f := List.map (Predicate.renamed (later d)))
    (partPredicates c own related p.search)
  rw [renamed_partPredicates] at hparts
  exact hparts

namespace Plan

/-- The rows are read in groups if there are group keys. -/
theorem groups_of_select {s : Select} (h : p.select k = .ok s) :
    s.groups = p.groupBy.map groupOf := by
  obtain ⟨c, -, h⟩ := Outcome.bind_eq_ok.1 h
  obtain ⟨⟨built, _⟩, hbuilt, h⟩ := Outcome.bind_eq_ok.1 h
  obtain rfl := Outcome.pure_eq_ok.1 h
  split at hbuilt
  case isTrue =>
    obtain ⟨conditions, _, -, hbuilt⟩ := Build.bind_eq_ok.1 hbuilt
    obtain ⟨rfl, -⟩ := Build.pure_eq_ok.1 hbuilt
    rfl
  case isFalse hkind =>
    obtain ⟨outputs, _, -, hbuilt⟩ := Build.bind_eq_ok.1 hbuilt
    obtain ⟨conditions, _, -, hbuilt⟩ := Build.bind_eq_ok.1 hbuilt
    obtain ⟨order, _, -, hbuilt⟩ := Build.bind_eq_ok.1 hbuilt
    obtain ⟨rfl, -⟩ := Build.pure_eq_ok.1 hbuilt
    rw [isAggregate, Bool.or_eq_true, not_or] at hkind
    have hempty : p.groupBy = [] := by simpa using hkind.2
    rw [hempty]
    rfl

/-- What is counted, if it is not a single row of aggregates: the rows under the conditions, as they
are built when no table has been numbered, or their groups. -/
theorem count_of_conditions {conditions : List Predicate} {m : Alias}
    (hkind : p.isAggregate = false ∨ p.groupBy ≠ []) (hc : k.find p.collection = .ok c)
    (h : p.conditions k c baseAlias = .ok (conditions, m)) :
    ∃ t, p.count k = .ok t ∧ t.conditions = conditions ∧ ∃ before after,
      AsksFor t.write before c.tableName conditions (p.groupBy.map groupOf) after ∧
        before.parameters = [] ∧ after.parameters = [] := by
  have hnot : ¬ (p.isAggregate && p.groupBy.isEmpty) = true := by
    rw [Bool.and_eq_true, List.isEmpty_iff]
    rintro ⟨haggregate, hempty⟩
    rcases hkind with hrows | hgroups
    · rw [hrows] at haggregate
      cases haggregate
    · exact hgroups hempty
  have hcount : p.count k = .ok (if p.groupBy.isEmpty then .rows c.tableName conditions
      else .groups c.tableName conditions (p.groupBy.map groupOf)) := by
    refine Outcome.bind_eq_ok.2 ⟨c, hc, ?_⟩
    rw [if_neg hnot]
    exact Outcome.bind_eq_ok.2 ⟨_, h, rfl⟩
  refine ⟨_, hcount, ?_⟩
  split
  case isTrue hempty =>
    refine ⟨rfl, Fragment.ofText "SELECT count(*)", [], ?_, rfl, rfl⟩
    simp [AsksFor, Count.write, List.isEmpty_iff.1 hempty, writeGroups]
  case isFalse =>
    exact ⟨rfl, Fragment.ofText "SELECT count(*) FROM (SELECT 1", Fragment.ofText ") AS grouped",
      rfl, rfl, rfl⟩

end Plan

/-- **Rows are counted under the conditions under which they are read.** If a plan for rows or for
groups of rows can be read, it can be counted, whatever is selected of it, in which order and which
page. Both statements have the same table and the same groups; their conditions are the same but for
the numbers of the tables that were added, also as texts; and the values of the count are those that
stand in the conditions of the other statement, one after another. -/
theorem count_asks_as_select {s : Select} (hkind : p.isAggregate = false ∨ p.groupBy ≠ [])
    (h : p.select k = .ok s) :
    ∃ t, p.count k = .ok t ∧
      (∀ selection sort limit offset,
        { p with selection, sort, limit, offset : Plan }.count k = p.count k) ∧
      (∃ before after, AsksFor s.write before s.table s.conditions s.groups after ∧
        s.write.parameters = before.parameters ++ t.write.parameters ++ after.parameters) ∧
      (∃ before after, AsksFor t.write before s.table t.conditions s.groups after ∧
        t.write.parameters = (Predicate.writeConditions s.conditions).parameters) ∧
      ∃ ρ, Function.Injective ρ ∧ ρ baseAlias = baseAlias ∧
        s.conditions = t.conditions.map (Predicate.renamed ρ) ∧
        Renumbered ρ (Predicate.writeConditions t.conditions).sql
          (Predicate.writeConditions s.conditions).sql := by
  obtain ⟨c, hc, -⟩ := Outcome.bind_eq_ok.1 h
  obtain ⟨htable, n, m, hconditions⟩ := Plan.exists_of_select hc h
  -- the count builds the same conditions before any table has been numbered
  have hshift := Plan.follows_conditions (d := n) (p := p) (k := k) (c := c) baseAlias
  rw [show baseAlias + n = n from Nat.zero_add n, hconditions] at hshift
  obtain ⟨⟨conditions, l⟩, hfirst, heq⟩ := Outcome.map_eq_ok.1 hshift.symm
  have hrenamed : s.conditions = conditions.map (Predicate.renamed (later n)) :=
    (Prod.mk.inj heq).1.symm
  obtain ⟨t, ht, rfl, before, after, hasks, hbefore, hafter⟩ :=
    Plan.count_of_conditions hkind hc hfirst
  have hover : ∀ q ∈ t.conditions, q.Over fun _ => True := by
    obtain ⟨own, _, related, hown, hrelated, hparts⟩ := Plan.exists_of_conditions hfirst
    rw [hparts]
    exact over_partPredicates hown hrelated
  have hvalues : t.write.parameters = (Predicate.writeConditions s.conditions).parameters := by
    rw [hasks.parameters, hbefore, hafter, hrenamed,
      Predicate.parameters_writeConditions_renamed, List.nil_append, List.append_nil]
  rw [← htable, ← Plan.groups_of_select h] at hasks
  refine ⟨t, ht, fun _ _ _ _ => rfl, ?_, ⟨before, after, hasks, hvalues⟩, later n,
    later_injective n, later_baseAlias n, hrenamed, ?_⟩
  · have hselect := asksFor_select s
    refine ⟨_, _, hselect, ?_⟩
    rw [hvalues]
    exact hselect.parameters
  · rw [hrenamed]
    exact Predicate.renumbered_writeConditions hover

/-- The titles of the posts that are searched for, with the names of their authors. -/
def Sample.listing : Plan :=
  { searching with selection := .node ["title"] [("author", .node ["name"] [])] }

/-- The posts that are listed with their authors are counted under the same conditions. -/
theorem count_asks_as_select_listing : ∃ s t,
    (Sample.listing.isAggregate = false ∨ Sample.listing.groupBy ≠ []) ∧
    Sample.listing.select Sample.archive = .ok s ∧ Sample.listing.count Sample.archive = .ok t ∧
    t.write.parameters = (Predicate.writeConditions s.conditions).parameters ∧
    ∃ ρ, Function.Injective ρ ∧ s.conditions = t.conditions.map (Predicate.renamed ρ) := by
  obtain ⟨s, hs⟩ : ∃ s, Sample.listing.select Sample.archive = .ok s := ⟨_, rfl⟩
  have hkind : Sample.listing.isAggregate = false ∨ Sample.listing.groupBy ≠ [] := .inl rfl
  obtain ⟨t, ht, -, -, ⟨_, _, -, hvalues⟩, ρ, hρ, -, hrenamed, -⟩ := count_asks_as_select hkind hs
  exact ⟨s, t, hkind, hs, ht, hvalues, ρ, hρ, hrenamed⟩

end Warden
