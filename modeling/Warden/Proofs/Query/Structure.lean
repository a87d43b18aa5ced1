import Warden.Proofs.Filter.Structure
import Warden.Proofs.Query.Names
import Warden.Proofs.Sample

/-! # What a statement asks of its rows

The text behind the WHERE of a statement, read as the language has it, is a conjunction
(**`where_reads_as_filter`**): of the filter, of one search for a row per condition on a relation,
of the search for a text and of the test for deleted rows. The same holds of every statement that
reads, counts, changes or deletes rows (**`Filtered`**), since all of them write their conditions in
the same way. -/

namespace Warden

open Sql

/-! ## Parts of a condition on rows -/

/-- What a search for a text is read as. -/
def Search.reading (s : Search) : Reading :=
  if s.fields.isEmpty then .comparison [.word "FALSE"]
  else
    .disjoined (s.fields.map fun f =>
      .comparison ((Column.mk baseAlias f).tokens ++
        (castTo "text" ++ [.word "ILIKE", .placeholder])))

/-- What the test for deleted rows is read as. -/
def aliveReading : Reading :=
  .comparison [.word "t0", .mark '.', .name "deleted_at", .word "IS", .word "NULL"]

/-- The readings are those of the filter, of the conditions on relations that not every row matches,
of the search if there is one, and of the test for deleted rows if they are kept. -/
def ReadsAsParts (k : Catalog) (c : Collection) (f : Filter) (relConditions : Named Filter)
    (search : Option Search) (rs : List Reading) : Prop :=
  ∃ own related, f.ReadsAs k c baseAlias own ∧
    List.Forall₂ (RelationReadsAs k c) (relConditions.filter fun entry => !entry.2.isAll) related ∧
    rs = own :: related ++ (search.map Search.reading).toList ++
      if c.paranoid then [aliveReading] else []

variable {k : Catalog} {c : Collection} {f : Filter} {relConditions : Named Filter}
  {search : Option Search} {n l m : Alias}

/-- The parts of a condition on rows as predicates. -/
def partPredicates (c : Collection) (own : Predicate) (related : List Predicate)
    (search : Option Search) : List Predicate :=
  own :: related ++ (search.map searchPredicate).toList ++
    if c.paranoid then [.test (.alive baseAlias)] else []

/-- What each of the parts has, all of them have. -/
theorem forall_mem_partPredicates {motive : Predicate → Prop} {own : Predicate}
    {related : List Predicate} (hown : motive own) (hrelated : ∀ p ∈ related, motive p)
    (hsearch : ∀ s, motive (searchPredicate s)) (halive : motive (.test (.alive baseAlias))) :
    ∀ p ∈ partPredicates c own related search, motive p := by
  intro p hp
  rcases List.mem_append.1 hp with hp | hp
  · rcases List.mem_append.1 hp with hp | hp
    · exact List.forall_mem_cons.2 ⟨hown, hrelated⟩ p hp
    · obtain ⟨s, -, rfl⟩ := Option.map_eq_some_iff.1 (Option.mem_toList.1 hp)
      exact hsearch s
  · split at hp
    · rw [List.mem_singleton.1 hp]
      exact halive
    · cases hp

/-- Nothing is asked of names here. -/
theorem Catalog.over_true (k : Catalog) : k.Over fun _ => True where
  collections _ _ :=
    ⟨trivial, trivial, fun _ _ => trivial, fun _ _ =>
      ⟨trivial, fun _ _ => trivial, fun _ _ => trivial, fun _ _ => trivial, fun _ _ => trivial⟩⟩
  reserved := ⟨trivial, trivial⟩

theorem Collection.over_true (c : Collection) : c.Over fun _ => True :=
  (Catalog.over_true ⟨[c]⟩).collections c (List.mem_singleton_self c)

theorem reading_searchPredicate (s : Search) : (searchPredicate s).reading = s.reading := by
  unfold searchPredicate Search.reading
  split
  · rfl
  · rw [Predicate.reading, Predicate.readings_eq_map, List.map_map]
    rfl

theorem filled_searchPredicate (s : Search) : (searchPredicate s).Filled := by
  unfold searchPredicate
  split
  · exact .constant false
  · next hfields =>
      refine .disj ?_ (List.forall_mem_map.2 fun _ _ => .test _)
      simpa using hfields

section Parts

variable {own : Predicate} {related : List Predicate}
  (hown : f.predicate k c baseAlias n = .ok (own, l))
  (hrelated : relationPredicates k c relConditions l = .ok (related, m))

include hown hrelated

theorem over_partPredicates :
    ∀ p ∈ partPredicates c own related search, p.Over fun _ => True :=
  forall_mem_partPredicates (over_predicate k.over_true c.over_true hown)
    (over_relationPredicates k.over_true c.over_true hrelated)
    (fun _ => Plan.over_searchPredicate fun _ _ => trivial)
    (.test _ (Test.over_alive trivial baseAlias))

/-- **The parts are read as what they stand for**, and there is something in each group. -/
theorem readsAs_partPredicates (hf : f.Branching)
    (hrel : ∀ entry ∈ relConditions, entry.2.Branching) :
    (∀ p ∈ partPredicates c own related search, p.Filled) ∧
      ReadsAsParts k c f relConditions search
        ((partPredicates c own related search).map Predicate.reading) := by
  obtain ⟨hfilled, hreads⟩ := readsAs_predicate hf hown
  obtain ⟨hfilleds, hall⟩ :=
    (List.forall₂_and_left _ _).1 (readsAs_relationPredicates hrel hrelated)
  constructor
  · exact forall_mem_partPredicates hfilled hfilleds filled_searchPredicate (.test _)
  · refine ⟨own.reading, related.map Predicate.reading, hreads,
      (List.forall₂_map_left_iff.2 hall).flip, ?_⟩
    have halive : ((if c.paranoid then [Predicate.test (.alive baseAlias)] else []).map
        Predicate.reading) = if c.paranoid then [aliveReading] else [] := by
      split
      · rfl
      · rfl
    have hsearch : (search.map searchPredicate).toList.map Predicate.reading =
        (search.map Search.reading).toList := by
      cases search with
      | none => rfl
      | some s => simp [reading_searchPredicate]
    simp only [partPredicates, List.map_append, List.map_cons, halive, hsearch]

end Parts

/-! ## What follows a WHERE -/

/-- The words that begin what stands behind the condition of a statement. -/
def followers : List String :=
  [" GROUP BY ", " ORDER BY ", " LIMIT ", " OFFSET ", " RETURNING "]

/-- The text is empty or begins another clause. -/
def EndsClause (s : String) : Prop :=
  s = "" ∨ ∃ word ∈ followers, ∃ rest, s = word ++ rest

theorem EndsClause.append {s t : String} (hs : EndsClause s) (ht : EndsClause t) :
    EndsClause (s ++ t) := by
  rcases hs with rfl | ⟨word, hword, rest, rfl⟩
  · rwa [String.empty_append]
  · exact .inr ⟨word, hword, rest ++ t, String.append_assoc ..⟩

theorem endsClause_word {word : String} (hword : word ∈ followers) (rest : String) :
    EndsClause (word ++ rest) :=
  .inr ⟨word, hword, rest, rfl⟩

theorem endsClause_ite {b : Prop} [Decidable b] {g h : Fragment} (hg : EndsClause g.sql)
    (hh : EndsClause h.sql) : EndsClause (if b then g else h).sql := by
  split
  · exact hg
  · exact hh

theorem endsClause_nil : EndsClause (Fragment.sql []) :=
  .inl rfl

/-- A clause that begins with a word of its own. -/
theorem endsClause_clause {word : String} (hword : word ∈ followers) (rest : Fragment) :
    EndsClause (Fragment.ofText word ++ rest).sql := by
  rw [Fragment.sql_append, Fragment.sql_ofText]
  exact endsClause_word hword rest.sql

theorem endsClause_writeGroups (groups : List Group) : EndsClause (writeGroups groups).sql := by
  refine endsClause_ite endsClause_nil ?_
  rw [Fragment.sql_ofText]
  exact endsClause_word (by decide) _

/-! ## Statements with conditions on rows -/

/-- The condition stands in the statement, from its WHERE to the next clause. -/
def StandsIn (clause statement : String) : Prop :=
  ∃ before after, statement = before ++ " WHERE " ++ clause ++ after ∧ EndsClause after

/-- What must hold of the rows that are counted. -/
def Sql.Count.conditions : Count → List Predicate
  | .one => []
  | .rows _ conditions | .groups _ conditions _ => conditions

/-- What must hold of the rows that are written. -/
def Sql.Change.conditions : Change → List Predicate
  | .insert .. | .link .. => []
  | .update _ _ conditions _ | .mark _ conditions _ | .delete _ conditions _ => conditions

/-- The statement is about the rows of the collection that match the filter and the conditions on
relations, and the search if there is one: it is one of the four that have such rows, and these are
its conditions. -/
inductive Filtered (k : Catalog) :
    Collection → Filter → Named Filter → Option Search → List Predicate → Fragment → Prop where
  /-- It reads the rows of a plan. -/
  | select {p : Plan} {c : Collection} {s : Select} (hc : k.find p.collection = .ok c)
      (h : p.select k = .ok s) :
      Filtered k c p.filter p.relConditions p.search s.conditions s.write
  /-- It counts the rows of a plan. -/
  | count {p : Plan} {c : Collection} {s : Count} (hc : k.find p.collection = .ok c)
      (h : p.count k = .ok s) (hrows : s ≠ .one) :
      Filtered k c p.filter p.relConditions p.search s.conditions s.write
  /-- It changes rows. -/
  | update {c : Collection} {collection : String} {f : Filter} {values : Record}
      {relConditions : Named Filter} {s : Change} (hc : k.find collection = .ok c)
      (h : updateRows k collection f values relConditions = .ok s) :
      Filtered k c f relConditions none s.conditions s.write
  /-- It deletes rows or marks them. -/
  | delete {c : Collection} {collection : String} {f : Filter} {relConditions : Named Filter}
      {s : Change} (hc : k.find collection = .ok c)
      (h : deleteRows k collection f relConditions = .ok s) :
      Filtered k c f relConditions none s.conditions s.write

/-- The base table is named in the statement, and the condition on its rows stands behind the WHERE
that follows, up to the next clause. Between the two there is what is assigned, if anything is. -/
def BaseIn (table clause statement : String) : Prop :=
  ∃ before between after,
    statement = before ++ tableSql table baseAlias ++ between ++ " WHERE " ++ clause ++ after ∧
      (between = "" ∨ ∃ assigned, between = " SET " ++ assigned) ∧ EndsClause after

theorem BaseIn.standsIn {table clause statement : String} (h : BaseIn table clause statement) :
    StandsIn clause statement := by
  obtain ⟨before, between, after, rfl, -, hend⟩ := h
  exact ⟨before ++ tableSql table baseAlias ++ between, after, rfl, hend⟩

theorem baseIn_writeBase (before after : Fragment) (table : String) (conditions : List Predicate)
    (h : EndsClause after.sql) : BaseIn table (Predicate.writeConditions conditions).sql
      (before ++ writeBase table conditions ++ after).sql := by
  refine ⟨before.sql ++ " FROM ", "", after.sql, ?_, .inl rfl, h⟩
  simp [writeBase, String.append_assoc]

theorem baseIn_select (s : Select) :
    BaseIn s.table (Predicate.writeConditions s.conditions).sql s.write.sql := by
  have hlimit : EndsClause (Fragment.sql
      (if 0 ≤ s.limit then .ofText " LIMIT " ++ .ofValue (.int s.limit) else [])) :=
    endsClause_ite (endsClause_clause (by decide) _) endsClause_nil
  have hoffset : EndsClause (Fragment.sql
      (if 0 < s.offset then .ofText " OFFSET " ++ .ofValue (.int s.offset) else [])) :=
    endsClause_ite (endsClause_clause (by decide) _) endsClause_nil
  have horder : EndsClause (Fragment.sql (if s.order.isEmpty then []
      else .ofText " ORDER BY " ++ .joined ", " (s.order.map Order.write))) :=
    endsClause_ite endsClause_nil (endsClause_clause (by decide) _)
  rw [Select.write, List.append_assoc, List.append_assoc, List.append_assoc]
  refine baseIn_writeBase _ _ _ _ ?_
  simp only [Fragment.sql_append]
  exact (endsClause_writeGroups s.groups).append (horder.append (hlimit.append hoffset))

theorem baseIn_writeWhere (before between table : String) {f : Fragment}
    (hf : f.sql = before ++ tableSql table baseAlias ++ between)
    (hbetween : between = "" ∨ ∃ assigned, between = " SET " ++ assigned)
    (conditions : List Predicate) (key : String) :
    BaseIn table (Predicate.writeConditions conditions).sql
      (f ++ Change.writeWhere conditions key).sql := by
  refine ⟨before, between, " RETURNING " ++ (Column.mk baseAlias key).sql, ?_, hbetween,
    endsClause_word (by decide) _⟩
  simp [Change.writeWhere, hf, String.append_assoc]

theorem baseIn_update (table : String) (values : List (String × Written))
    (conditions : List Predicate) (key : String) :
    BaseIn table (Predicate.writeConditions conditions).sql
      (Change.update table values conditions key).write.sql := by
  refine baseIn_writeWhere "UPDATE " (" SET " ++ (Fragment.joined ", " (values.map fun entry =>
    .ofText (identifier entry.1 ++ " = ") ++ entry.2.write)).sql) table ?_ (.inr ⟨_, rfl⟩) _ _
  simp [String.append_assoc]

theorem baseIn_mark (table : String) (conditions : List Predicate) (key : String) :
    BaseIn table (Predicate.writeConditions conditions).sql
      (Change.mark table conditions key).write.sql := by
  refine baseIn_writeWhere "UPDATE " (" SET " ++ (identifier deletedMark ++ " = now()")) table ?_
    (.inr ⟨_, rfl⟩) _ _
  simp [String.append_assoc]

theorem baseIn_delete (table : String) (conditions : List Predicate) (key : String) :
    BaseIn table (Predicate.writeConditions conditions).sql
      (Change.delete table conditions key).write.sql :=
  baseIn_writeWhere "DELETE FROM " "" table (by simp) (.inl rfl) _ _

theorem baseIn_rows (table : String) (conditions : List Predicate) :
    BaseIn table (Predicate.writeConditions conditions).sql
      (Count.rows table conditions).write.sql := by
  have hbase := baseIn_writeBase (.ofText "SELECT count(*)") [] table conditions endsClause_nil
  rwa [List.append_nil] at hbase

theorem baseIn_groups {keys : List Group} (hkeys : keys ≠ []) (table : String)
    (conditions : List Predicate) :
    BaseIn table (Predicate.writeConditions conditions).sql
      (Count.groups table conditions keys).write.sql := by
  have hgroups : writeGroups keys = .ofText (" GROUP BY " ++
      String.intercalate ", " (keys.map Group.sql)) := by
    rw [writeGroups, if_neg (by simpa using hkeys)]
  rw [Count.write, List.append_assoc]
  refine baseIn_writeBase _ _ _ _ ?_
  rw [hgroups, Fragment.sql_append, Fragment.sql_ofText, String.append_assoc]
  exact endsClause_word (by decide) _

/-! ## Parts of the conditions of statements -/

/-- A statement that reads the rows of a plan is about its table, under its conditions. -/
theorem Plan.exists_of_select {p : Plan} {s : Select} (hc : k.find p.collection = .ok c)
    (h : p.select k = .ok s) :
    s.table = c.tableName ∧ ∃ n m, p.conditions k c n = .ok (s.conditions, m) := by
  obtain ⟨c', hfound, h⟩ := Outcome.bind_eq_ok.1 h
  obtain rfl : c = c' := Except.ok.inj (hc.symm.trans hfound)
  obtain ⟨⟨built, _⟩, hbuilt, h⟩ := Outcome.bind_eq_ok.1 h
  obtain rfl := Outcome.pure_eq_ok.1 h
  split at hbuilt
  · obtain ⟨conditions, _, hconditions, hbuilt⟩ := Build.bind_eq_ok.1 hbuilt
    obtain ⟨rfl, -⟩ := Build.pure_eq_ok.1 hbuilt
    exact ⟨rfl, _, _, hconditions⟩
  · obtain ⟨outputs, _, -, hbuilt⟩ := Build.bind_eq_ok.1 hbuilt
    obtain ⟨conditions, _, hconditions, hbuilt⟩ := Build.bind_eq_ok.1 hbuilt
    obtain ⟨order, _, -, hbuilt⟩ := Build.bind_eq_ok.1 hbuilt
    obtain ⟨rfl, -⟩ := Build.pure_eq_ok.1 hbuilt
    exact ⟨rfl, _, _, hconditions⟩

/-- A statement that counts the rows of a plan counts them or their groups, of which there are some,
under its conditions. -/
theorem Plan.exists_of_count {p : Plan} {s : Count} (hc : k.find p.collection = .ok c)
    (h : p.count k = .ok s) (hrows : s ≠ .one) :
    ∃ conditions n m, p.conditions k c n = .ok (conditions, m) ∧
      (s = .rows c.tableName conditions ∨
        ∃ keys, keys ≠ [] ∧ s = .groups c.tableName conditions keys) := by
  obtain ⟨c', hfound, h⟩ := Outcome.bind_eq_ok.1 h
  obtain rfl : c = c' := Except.ok.inj (hc.symm.trans hfound)
  split at h
  · cases h
    exact absurd rfl hrows
  · obtain ⟨⟨conditions, _⟩, hconditions, h⟩ := Outcome.bind_eq_ok.1 h
    refine ⟨conditions, _, _, hconditions, ?_⟩
    have h := Outcome.pure_eq_ok.1 h
    split at h
    · exact .inl h.symm
    · next hgroups => exact .inr ⟨_, by simpa using hgroups, h.symm⟩

namespace Filtered

variable {conditions : List Predicate} {statement : Fragment}

/-- The conditions of a statement are the predicates of its parts. -/
theorem exists_parts (h : Filtered k c f relConditions search conditions statement) :
    ∃ n own l related m, f.predicate k c baseAlias n = .ok (own, l) ∧
      relationPredicates k c relConditions l = .ok (related, m) ∧
      conditions = partPredicates c own related search := by
  have hplan {p : Plan} {ps : List Predicate} {n m : Alias}
      (h : p.conditions k c n = .ok (ps, m)) : ∃ n own l related m,
        p.filter.predicate k c baseAlias n = .ok (own, l) ∧
        relationPredicates k c p.relConditions l = .ok (related, m) ∧
        ps = partPredicates c own related p.search := by
    obtain ⟨own, l, related, hown, hrelated, hps⟩ := Plan.exists_of_conditions h
    exact ⟨n, own, l, related, m, hown, hrelated, hps⟩
  have hrows {f : Filter} {relConditions : Named Filter} {ps : List Predicate}
      (h : rowConditions k c f relConditions = .ok ps) : ∃ n own l related m,
        f.predicate k c baseAlias n = .ok (own, l) ∧
        relationPredicates k c relConditions l = .ok (related, m) ∧
        ps = partPredicates c own related none := by
    obtain ⟨own, l, related, m, hown, hrelated, hps⟩ := exists_of_rowConditions h
    refine ⟨_, own, l, related, m, hown, hrelated, hps.trans ?_⟩
    simp [partPredicates]
  cases h with
  | select hc h =>
      obtain ⟨-, n, m, hconditions⟩ := Plan.exists_of_select hc h
      exact hplan hconditions
  | count hc h hone =>
      obtain ⟨_, n, m, hconditions, rfl | ⟨_, -, rfl⟩⟩ := Plan.exists_of_count hc h hone
      · exact hplan hconditions
      · exact hplan hconditions
  | update hc h =>
      obtain ⟨c', hfound, h⟩ := Outcome.bind_eq_ok.1 h
      obtain rfl : c = c' := Except.ok.inj (hc.symm.trans hfound)
      obtain ⟨values, -, h⟩ := Outcome.bind_eq_ok.1 h
      obtain ⟨ps, hps, h⟩ := Outcome.bind_eq_ok.1 h
      obtain rfl := Outcome.pure_eq_ok.1 h
      exact hrows hps
  | delete hc h =>
      obtain ⟨c', hfound, h⟩ := Outcome.bind_eq_ok.1 h
      obtain rfl : c = c' := Except.ok.inj (hc.symm.trans hfound)
      obtain ⟨ps, hps, h⟩ := Outcome.bind_eq_ok.1 h
      obtain rfl := Outcome.pure_eq_ok.1 h
      obtain ⟨n, own, l, related, m, hown, hrelated, rfl⟩ := hrows hps
      refine ⟨n, own, l, related, m, hown, hrelated, ?_⟩
      split
      · rfl
      · rfl

/-- A statement is about the table of its collection. -/
theorem baseIn (h : Filtered k c f relConditions search conditions statement) :
    BaseIn c.tableName (Predicate.writeConditions conditions).sql statement.sql := by
  cases h with
  | select hc h =>
      rw [← (Plan.exists_of_select hc h).1]
      exact baseIn_select _
  | count hc h hone =>
      obtain ⟨_, _, _, -, rfl | ⟨keys, hkeys, rfl⟩⟩ := Plan.exists_of_count hc h hone
      · exact baseIn_rows _ _
      · exact baseIn_groups hkeys _ _
  | update hc h =>
      obtain ⟨c', hfound, h⟩ := Outcome.bind_eq_ok.1 h
      obtain rfl : c = c' := Except.ok.inj (hc.symm.trans hfound)
      obtain ⟨values, -, h⟩ := Outcome.bind_eq_ok.1 h
      obtain ⟨ps, -, h⟩ := Outcome.bind_eq_ok.1 h
      obtain rfl := Outcome.pure_eq_ok.1 h
      exact baseIn_update _ values ps _
  | delete hc h =>
      obtain ⟨c', hfound, h⟩ := Outcome.bind_eq_ok.1 h
      obtain rfl : c = c' := Except.ok.inj (hc.symm.trans hfound)
      obtain ⟨ps, -, h⟩ := Outcome.bind_eq_ok.1 h
      obtain rfl := Outcome.pure_eq_ok.1 h
      split
      · exact baseIn_mark _ ps _
      · exact baseIn_delete _ ps _

end Filtered

/-- **The WHERE of a statement reads as its filter.** Behind the WHERE of every statement that
reads, counts, changes or deletes rows stands a text that is read as a conjunction. Its members are
the filter, a search for a row per condition on a relation that not every row matches, the search
for the text and the test for deleted rows, each with the connectives of what it stands for in the
same places. Its parentheses pair up around something, and there is no OR outside of them. -/
theorem where_reads_as_filter {k : Catalog} {c : Collection} {f : Filter}
    {relConditions : Named Filter} {search : Option Search} {conditions : List Predicate}
    {statement : Fragment} (h : Filtered k c f relConditions search conditions statement)
    (hf : f.Branching) (hrel : ∀ entry ∈ relConditions, entry.2.Branching) :
    StandsIn (Predicate.writeConditions conditions).sql statement.sql ∧
      (∃ rs, readMembers (Predicate.writeConditions conditions).sql = some rs ∧
        ReadsAsParts k c f relConditions search rs) ∧
      ∃ ts, Lexes (Predicate.writeConditions conditions).sql ts ∧ Grouped ts := by
  obtain ⟨n, own, l, related, m, hown, hrelated, rfl⟩ := h.exists_parts
  obtain ⟨hfilled, hparts⟩ := readsAs_partPredicates hown hrelated hf hrel
  have hover : ∀ p ∈ partPredicates c own related search, p.Over fun _ => True :=
    over_partPredicates hown hrelated
  obtain ⟨hread, hgrouped⟩ := readMembers_writeConditions hover hfilled (by simp [partPredicates])
  exact ⟨h.baseIn.standsIn, ⟨_, hread, hparts⟩, hgrouped⟩

/-- The two collections, where posts are kept when they are deleted. -/
def Sample.archive : Catalog :=
  ⟨[{ Sample.posts with paranoid := true }, Sample.users]⟩

/-- Own posts with one of two titles or of an author who is not Bob, among those of authors called
Ada, in which a word occurs. -/
def Sample.searching : Plan where
  collection := "posts"
  filter := .conjoin [ownPost, .disjoin [
    .leaf ⟨"title", .isIn, .list [.text "a", .text "b"], none⟩,
    .negate (.leaf ⟨"author.name", .eq, .text "Bob", none⟩)]]
  relConditions := [("author", .leaf ⟨"name", .eq, .text "Ada", none⟩)]
  selection := .node ["title"] []
  allowlist := .all
  now := Sample.noon
  sort := []
  limit := 10
  offset := 0
  search := some ⟨"word", ["title"], false⟩
  aggregate := []
  groupBy := []

theorem Sample.branching_searching : Sample.searching.filter.Branching := by
  show (Filter.conjoin [ownPost, .disjoin [.leaf _, .negate (.leaf _)]]).Branching
  refine Filter.branching_conjoin (List.forall_mem_cons.2 ⟨.leaf _, List.forall_mem_singleton.2 ?_⟩)
  refine Filter.branching_disjoin (List.forall_mem_cons.2 ⟨.leaf _, List.forall_mem_singleton.2 ?_⟩)
  exact Filter.branching_negate (.leaf _)

/-- The WHERE of a search for posts reads as its filter. -/
theorem where_reads_as_filter_posts : ∃ s, Sample.searching.select Sample.archive = .ok s ∧
    Sample.searching.filter.Branching ∧
    (∀ entry ∈ Sample.searching.relConditions, entry.2.Branching) ∧
    StandsIn (Predicate.writeConditions s.conditions).sql s.write.sql ∧
    (∃ rs, readMembers (Predicate.writeConditions s.conditions).sql = some rs ∧
      ReadsAsParts Sample.archive { Sample.posts with paranoid := true } Sample.searching.filter
        Sample.searching.relConditions Sample.searching.search rs) ∧
    ∃ ts, Lexes (Predicate.writeConditions s.conditions).sql ts ∧ Grouped ts := by
  obtain ⟨s, hs⟩ : ∃ s, Sample.searching.select Sample.archive = .ok s := ⟨_, rfl⟩
  have hrel : ∀ entry ∈ Sample.searching.relConditions, entry.2.Branching :=
    List.forall_mem_singleton.2 (.leaf _)
  exact ⟨s, hs, Sample.branching_searching, hrel,
    where_reads_as_filter (.select rfl hs) Sample.branching_searching hrel⟩

end Warden
