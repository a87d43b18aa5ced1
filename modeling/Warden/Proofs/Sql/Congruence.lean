import Warden.Proofs.Sql.Frame

/-! # Conditions under other names and numbers

A condition can be put under other names of columns and tables, and under other numbers of tables
(**`Predicate.exchanged`**). All else in its text is fixed. So a relation between texts that holds
of columns and of tables and of what replaces them holds of the two texts of the condition, if it is
kept where the same is written around both texts or between two of them (**`Congruent`**).

Which fixed texts keep the relation is said by two tests, of what may start a text and of what may
end one, and **`Exchange`** demands them of all that conditions are written with. The main statement
is **`Exchange.write`**. -/

namespace Warden.Sql

variable {P : String → Prop} {σ : String → String} {ρ : Alias → Alias}

/-! ## Other names and numbers -/

/-- The column under another name, of the table with another number. -/
def Column.exchanged (σ : String → String) (ρ : Alias → Alias) (c : Column) : Column :=
  ⟨ρ c.tableAlias, σ c.name⟩

/-- The joining table under other names and numbers. -/
def Junction.exchanged (σ : String → String) (ρ : Alias → Alias) (u : Junction) : Junction :=
  ⟨σ u.table, ρ u.tableAlias, u.on.mapColumn (Column.exchanged σ ρ)⟩

/-- The join under other names and numbers. -/
def Join.exchanged (σ : String → String) (ρ : Alias → Alias) (j : Join) : Join where
  table := σ j.table
  tableAlias := ρ j.tableAlias
  junction := j.junction.map (Junction.exchanged σ ρ)
  on := j.on.mapColumn (Column.exchanged σ ρ)
  paranoid := j.paranoid

namespace Predicate

mutual

/-- The condition under other names and numbers. -/
def exchanged (σ : String → String) (ρ : Alias → Alias) : Predicate → Predicate
  | constant b => constant b
  | test t => test (t.mapColumn (Column.exchanged σ ρ))
  | conj ps => conj (exchangedAll σ ρ ps)
  | disj ps => disj (exchangedAll σ ρ ps)
  | neg p => neg (exchanged σ ρ p)
  | exist j p => exist (j.exchanged σ ρ) (exchanged σ ρ p)

/-- The conditions under other names and numbers. -/
def exchangedAll (σ : String → String) (ρ : Alias → Alias) : List Predicate → List Predicate
  | [] => []
  | p :: ps => exchanged σ ρ p :: exchangedAll σ ρ ps

end

theorem exchangedAll_eq_map (ps : List Predicate) :
    exchangedAll σ ρ ps = ps.map (exchanged σ ρ) := by
  induction ps with
  | nil => rfl
  | cons p ps ih => rw [exchangedAll, ih, List.map_cons]

end Predicate

/-! ## What is written around texts -/

/-- The relation is kept by what is written before, behind and between texts. -/
structure Congruent (R : String → String → Prop) (starts ends : String → Bool) : Prop where
  /-- It holds of nothing. -/
  nothing : R "" ""
  /-- The same is written before both texts. -/
  lead {before s t : String} (hbefore : starts before = true) (h : R s t) :
    R (before ++ s) (before ++ t)
  /-- The same is written behind both texts. -/
  tail {after s t : String} (hafter : ends after = true) (h : R s t) : R (s ++ after) (t ++ after)
  /-- The same is written between two texts. -/
  between {middle s t s' t' : String} (hstarts : starts middle = true) (hends : ends middle = true)
    (h : R s t) (h' : R s' t') : R (s ++ (middle ++ s')) (t ++ (middle ++ t'))

/-- Texts that are written behind something, again and again, can stand there: each may end a text,
and each but the last one may start one. -/
def fitBehind (starts ends : String → Bool) : List String → Bool
  | [] => true
  | after :: rest =>
    ends after && (rest.isEmpty || starts after) && fitBehind starts ends rest

/-- A frame keeps the relation. -/
def fits (starts ends : String → Bool) (frame : String × List String) : Bool :=
  starts frame.1 && fitBehind starts ends frame.2

section Frames

variable {starts ends : String → Bool} {before after last : String}

/-- The operand is named once. -/
theorem fits_once (hbefore : starts before = true) (hafter : ends after = true) :
    fits starts ends (before, [after]) = true := by
  simp [fits, fitBehind, hbefore, hafter]

/-- The operand is named twice. -/
theorem fits_twice (hbefore : starts before = true) (hstarts : starts after = true)
    (hends : ends after = true) (hlast : ends last = true) :
    fits starts ends (before, [after, last]) = true := by
  simp [fits, fitBehind, hbefore, hstarts, hends, hlast]

end Frames

namespace Congruent

variable {R : String → String → Prop} {starts ends : String → Bool} {s t : String}

theorem around (hR : Congruent R starts ends) {before after : String}
    (hbefore : starts before = true) (hafter : ends after = true) (h : R s t) :
    R (before ++ s ++ after) (before ++ t ++ after) := by
  rw [String.append_assoc, String.append_assoc]
  exact hR.lead hbefore (hR.tail hafter h)

theorem behind (hR : Congruent R starts ends) {afters : List String}
    (hfit : fitBehind starts ends afters = true) (h : R s t) :
    R (String.join (afters.map (s ++ ·))) (String.join (afters.map (t ++ ·))) := by
  induction afters with
  | nil => exact hR.nothing
  | cons after rest ih =>
      rw [fitBehind, Bool.and_eq_true, Bool.and_eq_true] at hfit
      obtain ⟨⟨hends, hstarts⟩, hrest⟩ := hfit
      rw [List.map_cons, List.map_cons, String.join_cons, String.join_cons]
      cases rest with
      | nil => simpa using hR.tail hends h
      | cons next rest =>
          rw [String.append_assoc, String.append_assoc]
          exact hR.between hstarts hends h (ih hrest)

/-- What is put into a frame is related as before. -/
theorem framed (hR : Congruent R starts ends) {frame : String × List String}
    (hfits : fits starts ends frame = true) (h : R s t) :
    R (Test.framed frame s) (Test.framed frame t) := by
  rw [fits, Bool.and_eq_true] at hfits
  exact hR.lead hfits.1 (hR.behind hfits.2 h)

/-- Texts with a separator between them. -/
theorem intercalate (hR : Congruent R starts ends) {separator : String}
    (hstarts : starts separator = true) (hends : ends separator = true) {ss ts : List String}
    (h : List.Forall₂ R ss ts) :
    R (String.intercalate separator ss) (String.intercalate separator ts) := by
  induction h with
  | nil => exact hR.nothing
  | cons hfirst hrest ih =>
      cases hrest with
      | nil =>
          rw [String.intercalate_singleton, String.intercalate_singleton]
          exact hfirst
      | cons hsecond hrest =>
          rw [String.intercalate_cons_cons, String.intercalate_cons_cons, String.append_assoc,
            String.append_assoc]
          exact hR.between hstarts hends hfirst ih

/-- Fragments with a separator between them. -/
theorem joined (hR : Congruent R starts ends) {separator : String}
    (hstarts : starts separator = true) (hends : ends separator = true) {fs gs : List Fragment}
    (h : List.Forall₂ (fun f g => R f.sql g.sql) fs gs) :
    R (Fragment.joined separator fs).sql (Fragment.joined separator gs).sql := by
  rw [Fragment.sql_joined, Fragment.sql_joined]
  refine hR.intercalate hstarts hends ?_
  rw [List.forall₂_map_left_iff, List.forall₂_map_right_iff]
  exact h

end Congruent

/-! ## What replaces names and numbers -/

/-- What stands before columns, tables and other parts of conditions. -/
def leads : List String :=
  ["", "(", "NOT (", "EXISTS (SELECT 1 FROM ", " = ", " JOIN ", " ON ", " WHERE ", " AND ", " OR ",
    " IS NULL OR ", " IS NULL OR cardinality(", "coalesce(cardinality(", "jsonb_path_exists(",
    "ST_Within(", "ST_Contains(", "ST_Intersects(", "ST_Overlaps(", "NOT ST_Within(",
    "NOT ST_Contains(", "NOT ST_Intersects(", "NOT ST_Overlaps(", "ST_DWithin("]

/-- What stands behind columns, tables and other parts of conditions. -/
def tails : List String :=
  [")", " = ", " JOIN ", " ON ", " WHERE ", " AND ", " OR ", " = %s", " IS DISTINCT FROM %s",
    " > %s", " >= %s", " < %s", " <= %s", " LIKE %s", " NOT LIKE %s", " ILIKE %s",
    " NOT ILIKE %s", " ~ %s", " @> %s", " && %s", " <@ %s", " ? %s", " IS NULL", " IS NOT NULL",
    " = ANY(%s)", " IS NULL OR ", " <> ALL(%s))", " BETWEEN %s AND %s", " NOT BETWEEN %s AND %s",
    " IS NULL OR cardinality(", ") = 0)", "::jsonb IN ('\x7b\x7d'::jsonb, '[]'::jsonb))",
    "::text = '')", "), 0) = %s", " @> %s::jsonb", " ?| %s::text[]", " ?& %s::text[]",
    ", %s::jsonpath)", ", ST_GeomFromGeoJSON(%s))",
    "::geography, ST_GeomFromGeoJSON(%s)::geography, %s)", "::text ILIKE %s", ")::text",
    ")::varchar", ")::uuid", ")::numeric", ")::integer", ")::bigint", ")::double precision",
    ")::boolean", ")::date", ")::time", ")::timestamp", ")::timestamptz", ")::jsonb"]

theorem cast_mem_tails : ∀ entry ∈ castFamilies, ")::" ++ entry.1 ∈ tails := by
  simp [castFamilies, tails]

/-- The relation holds of columns and tables and of what replaces them, and it is kept by all that
is written around them. -/
structure Exchange (R : String → String → Prop) (starts ends : String → Bool)
    (σ : String → String) (ρ : Alias → Alias) : Prop extends Congruent R starts ends where
  /-- It holds of columns. -/
  column (c : Column) : R c.sql (c.exchanged σ ρ).sql
  /-- It holds of the mark of deleted rows, which keeps its name. -/
  mark (a : Alias) : R (Column.mk a deletedMark).sql (Column.mk (ρ a) deletedMark).sql
  /-- It holds of tables. -/
  table (name : String) (a : Alias) : R (tableSql name a) (tableSql (σ name) (ρ a))
  /-- It holds of the two constants. -/
  constant (b : Bool) : R (if b then "TRUE" else "FALSE") (if b then "TRUE" else "FALSE")
  /-- It is kept by what stands before parts of conditions. -/
  starts_of_mem : ∀ s ∈ leads, starts s = true
  /-- It is kept by what stands behind them. -/
  ends_of_mem : ∀ s ∈ tails, ends s = true

namespace Exchange

variable {R : String → String → Prop} {starts ends : String → Bool}

theorem join (hR : Exchange R starts ends σ ρ) {s t s' t' : String} (h : R s t) (word : String)
    (h' : R s' t') (hlead : word ∈ leads) (htail : word ∈ tails) :
    R (s ++ (word ++ s')) (t ++ (word ++ t')) :=
  hR.between (hR.starts_of_mem word hlead) (hR.ends_of_mem word htail) h h'

theorem enclosed (hR : Exchange R starts ends σ ρ) {s t : String} (word : String) (h : R s t)
    (hlead : word ∈ leads) : R (word ++ s ++ ")") (word ++ t ++ ")") :=
  hR.around (hR.starts_of_mem word hlead) (hR.ends_of_mem ")" (by simp [tails])) h

/-- The frames of all tests are made of texts that keep the relation. -/
theorem frame (hR : Exchange R starts ends σ ρ) (t : Test) : fits starts ends t.frame = true := by
  have hstarts := hR.starts_of_mem
  have hends := hR.ends_of_mem
  cases t with
  | compare o c v =>
      have htail : " " ++ c.sql ++ " %s" ∈ tails := by
        cases c <;> simp [tails, Comparator.sql]
      exact fits_once (hstarts "" (by simp [leads])) (hends _ htail)
  | empty kind o | notEmpty kind o =>
      cases kind <;> exact fits_twice (hstarts _ (by simp [leads, Test.emptyFrame]))
        (hstarts _ (by simp [leads])) (hends _ (by simp [tails])) (hends _ (by simp [tails]))
  | noneOf o vs =>
      exact fits_twice (hstarts "(" (by simp [leads])) (hstarts _ (by simp [leads]))
        (hends _ (by simp [tails])) (hends _ (by simp [tails]))
  | spatial s o geometry | notSpatial s o geometry =>
      cases s <;> exact fits_once (hstarts _ (by simp [leads, Spatial.function]))
        (hends _ (by simp [tails]))
  | _ => exact fits_once (hstarts _ (by simp [leads])) (hends _ (by simp [tails]))

theorem operand (hR : Exchange R starts ends σ ρ) {o : Operand} (ho : o.Over P) :
    R o.sql (o.mapColumn (Column.exchanged σ ρ)).sql := by
  obtain ⟨column, cast⟩ := o
  cases cast with
  | none => exact hR.column column
  | some cast =>
      obtain ⟨family, hfamily⟩ := Option.isSome_iff_exists.1 (ho.cast cast rfl)
      obtain ⟨before, after, hcasts, -⟩ := List.lookup_eq_some_iff.1 hfamily
      have hmem : (cast, family) ∈ castFamilies :=
        hcasts ▸ List.mem_append_right before List.mem_cons_self
      have hends := hR.ends_of_mem _ (cast_mem_tails (cast, family) hmem)
      have hwhole := hR.around (hR.starts_of_mem "(" (by simp [leads])) hends (hR.column column)
      simpa [Operand.sql, Operand.mapColumn, String.append_assoc] using hwhole

theorem test (hR : Exchange R starts ends σ ρ) {t : Test} (h : t.operand.Over P) :
    R t.write.sql (t.mapColumn (Column.exchanged σ ρ)).write.sql := by
  rw [Test.sql_write, Test.sql_write, Test.frame_mapColumn, Test.operand_mapColumn]
  exact hR.framed (hR.frame t) (hR.operand h)

/-- Rows that are not marked as deleted, in tables with other numbers. -/
theorem alive (hR : Exchange R starts ends σ ρ) (a : Alias) :
    R (Test.alive a).write.sql (Test.alive (ρ a)).write.sql := by
  have hframe : Test.frame (Test.alive (ρ a)) = Test.frame (Test.alive a) := rfl
  rw [Test.sql_write, Test.sql_write, hframe]
  exact hR.framed (hR.frame (Test.alive a)) (hR.mark a)

theorem correlation (hR : Exchange R starts ends σ ρ) (c : Correlation) :
    R c.sql (c.mapColumn (Column.exchanged σ ρ)).sql := by
  rw [Correlation.sql, Correlation.sql, String.append_assoc, String.append_assoc]
  exact hR.join (hR.column c.left) " = " (hR.column c.right) (by simp [leads]) (by simp [tails])

theorem fromSql (hR : Exchange R starts ends σ ρ) (j : Join) :
    R j.fromSql (j.exchanged σ ρ).fromSql := by
  have htable := hR.table j.table j.tableAlias
  obtain ⟨table, a, junction, on, paranoid⟩ := j
  cases junction with
  | none => exact htable
  | some u =>
      have hrest := hR.join htable " ON " (hR.correlation u.on) (by simp [leads]) (by simp [tails])
      have hwhole := hR.join (hR.table u.table u.tableAlias) " JOIN " hrest (by simp [leads])
        (by simp [tails])
      simpa only [Join.fromSql, Join.exchanged, Option.map_some, Junction.exchanged,
        String.append_assoc] using hwhole

/-- What a join demands of the rows. -/
theorem onFragments (hR : Exchange R starts ends σ ρ) (j : Join) :
    List.Forall₂ (fun f g => R f.sql g.sql) j.onFragments (j.exchanged σ ρ).onFragments := by
  have hon : R (Fragment.ofText j.on.sql).sql (Fragment.ofText (j.exchanged σ ρ).on.sql).sql := by
    rw [Fragment.sql_ofText, Fragment.sql_ofText]
    exact hR.correlation j.on
  refine .cons hon ?_
  show List.Forall₂ _ (if j.paranoid then _ else _) (if j.paranoid then _ else _)
  split
  · exact .cons (hR.alive j.tableAlias) .nil
  · exact .nil

/-- Conditions with a word between them. -/
theorem members (hR : Exchange R starts ends σ ρ) (word : String) {fs gs : List Fragment}
    (h : List.Forall₂ (fun f g => R f.sql g.sql) fs gs) (hlead : word ∈ leads)
    (htail : word ∈ tails) :
    R (Fragment.joined word fs).sql (Fragment.joined word gs).sql :=
  hR.joined (hR.starts_of_mem word hlead) (hR.ends_of_mem word htail) h

/-- The tables of a search, and what must hold of their rows. -/
theorem searched (hR : Exchange R starts ends σ ρ) (j : Join) {fs gs : List Fragment}
    (h : List.Forall₂ (fun f g => R f.sql g.sql) fs gs) :
    R (j.fromSql ++ (" WHERE " ++ (Fragment.joined " AND " (j.onFragments ++ fs)).sql))
      ((j.exchanged σ ρ).fromSql ++
        (" WHERE " ++ (Fragment.joined " AND " ((j.exchanged σ ρ).onFragments ++ gs)).sql)) := by
  have hconditions := hR.members " AND " (List.rel_append (hR.onFragments j) h)
    (by simp [leads]) (by simp [tails])
  exact hR.join (hR.fromSql j) " WHERE " hconditions (by simp [leads]) (by simp [tails])

theorem exist (hR : Exchange R starts ends σ ρ) (j : Join) {fs gs : List Fragment}
    (h : List.Forall₂ (fun f g => R f.sql g.sql) fs gs) :
    R (Fragment.ofText "EXISTS (SELECT 1" ++ Predicate.writeBehind j fs ++
        Fragment.ofText ")").sql
      (Fragment.ofText "EXISTS (SELECT 1" ++ Predicate.writeBehind (j.exchanged σ ρ) gs ++
        Fragment.ofText ")").sql := by
  have hwhole := hR.enclosed "EXISTS (SELECT 1 FROM " (hR.searched j h) (by simp [leads])
  -- the text is written with its beginning in two parts
  have hbegin (s : String) : "EXISTS (SELECT 1" ++ (" FROM " ++ s) =
      "EXISTS (SELECT 1 FROM " ++ s := (String.append_assoc ..).symm
  simpa [Predicate.writeBehind, hbegin, String.append_assoc] using hwhole

theorem writeAll {ps : List Predicate}
    (h : ∀ p ∈ ps, R p.write.sql (p.exchanged σ ρ).write.sql) :
    List.Forall₂ (fun f g => R f.sql g.sql) (Predicate.writeAll ps)
      (Predicate.writeAll (Predicate.exchangedAll σ ρ ps)) := by
  induction ps with
  | nil => exact .nil
  | cons p ps ih =>
      obtain ⟨hp, hps⟩ := List.forall_mem_cons.1 h
      exact .cons hp (ih hps)

/-- Conditions in parentheses, with a word between them. -/
theorem group (hR : Exchange R starts ends σ ρ) (word : String) {ps : List Predicate}
    (h : ∀ p ∈ ps, R p.write.sql (p.exchanged σ ρ).write.sql) (hlead : word ∈ leads)
    (htail : word ∈ tails) :
    R (Fragment.parenthesized (Fragment.joined word (Predicate.writeAll ps))).sql
      (Fragment.parenthesized
        (Fragment.joined word (Predicate.writeAll (Predicate.exchangedAll σ ρ ps)))).sql := by
  have hwhole := hR.enclosed "(" (hR.members word (writeAll h) hlead htail) (by simp [leads])
  simpa [Fragment.parenthesized, String.append_assoc] using hwhole

/-- **The relation holds of the two texts of a condition**, if the casts in it are known. -/
theorem write (hR : Exchange R starts ends σ ρ) {p : Predicate} (h : p.Over P) :
    R p.write.sql (p.exchanged σ ρ).write.sql := by
  induction h with
  | constant b =>
      rw [Predicate.exchanged, Predicate.write, Fragment.sql_ofText]
      exact hR.constant b
  | test t h => exact hR.test h
  | conj ps _ ih => exact hR.group " AND " ih (by simp [leads]) (by simp [tails])
  | disj ps _ ih => exact hR.group " OR " ih (by simp [leads]) (by simp [tails])
  | neg p _ ih =>
      have hwhole := hR.enclosed "NOT (" ih (by simp [leads])
      have hbegin (s : String) : "NOT " ++ ("(" ++ s) = "NOT (" ++ s :=
        (String.append_assoc ..).symm
      simpa [Predicate.exchanged, Predicate.write, Fragment.parenthesized, hbegin,
        String.append_assoc] using hwhole
  | exist j p _ _ ih => exact hR.exist j (.cons ih .nil)

/-- The relation holds of the two texts of conditions that must all hold. -/
theorem writeConditions (hR : Exchange R starts ends σ ρ) {ps : List Predicate}
    (h : ∀ p ∈ ps, p.Over P) :
    R (Predicate.writeConditions ps).sql
      (Predicate.writeConditions (ps.map (Predicate.exchanged σ ρ))).sql := by
  rw [← Predicate.exchangedAll_eq_map]
  exact hR.members " AND " (writeAll fun p hp => hR.write (h p hp)) (by simp [leads])
    (by simp [tails])

end Exchange

end Warden.Sql
