import Warden.Proofs.Sql.Comparison

/-! # The structure of a written predicate

The text of a predicate, read as the language has it, says what the predicate is: its connectives
are the ones that are read, in the same places (**`reads_write`**). The text of a statement's
conditions says that each of them must hold, and nothing else (**`readMembers_writeConditions`**).

Nothing is asked of the names in a predicate. Its casts are known ones, and each of its groups has a
part (**`Predicate.Filled`**): an empty one is written as a pair of parentheses around nothing, and
then the text cannot be read (**`readMembers_joined_iff`**). -/

namespace Warden.Sql

variable {P : String → Prop} {rs : List Reading}

/-! ## Joins -/

/-- A correlation as tokens. -/
def Correlation.tokens (c : Correlation) : List Token :=
  c.left.tokens ++ .mark '=' :: c.right.tokens

/-- A named table with its number as tokens. -/
def tableTokens (table : String) (a : Alias) : List Token :=
  [.name table, .word "AS", .word (aliasName a)]

namespace Join

/-- The tables of a join as tokens. -/
def fromTokens (j : Join) : List Token :=
  let table := tableTokens j.table j.tableAlias
  match j.junction with
  | none => table
  | some u =>
    tableTokens u.table u.tableAlias ++ .word "JOIN" :: (table ++ .word "ON" :: u.on.tokens)

/-- The query for the rows behind a join, up to its WHERE. -/
def query (j : Join) : List Token :=
  .selectWord :: .word "1" :: .word "FROM" :: j.fromTokens

/-- What a join demands of the rows. -/
def onReadings (j : Join) : List Reading :=
  .comparison j.on.tokens :: if j.paranoid then [(Test.alive j.tableAlias).reading] else []

end Join

theorem lexes_correlation (c : Correlation) : Lexes c.sql c.tokens := by
  have hequal : Closed " = " [.mark '='] := by decide +kernel
  have hopens : Opens (" = " ++ c.right.sql) := Opens.append (by decide +kernel) _
  rw [Correlation.sql, String.append_assoc]
  exact (lexes_column c.left).append (hequal.append (lexes_column c.right)) hopens

theorem inert_correlation (c : Correlation) : Inert c.tokens (c.tokens.map .token) :=
  inert_plain rfl

theorem lexes_tableSql (table : String) (a : Alias) :
    Lexes (tableSql table a) (tableTokens table a) := by
  have has : Closed " AS " [.word "AS"] := by decide +kernel
  have hopens : Opens (" AS " ++ aliasName a) := Opens.append (by decide +kernel) _
  rw [tableSql, String.append_assoc]
  exact (lexes_identifier table).append (has.append (lexes_aliasName a)) hopens

theorem lexes_fromSql (j : Join) : Lexes j.fromSql j.fromTokens := by
  have htable := lexes_tableSql j.table j.tableAlias
  unfold Join.fromSql Join.fromTokens
  cases j.junction with
  | none => exact htable
  | some u =>
      have hjoin : Closed " JOIN " [.word "JOIN"] := by decide +kernel
      have hon : Closed " ON " [.word "ON"] := by decide +kernel
      have hrest := htable.append (hon.append (lexes_correlation u.on))
        (Opens.append (by decide +kernel) _)
      simp only [String.append_assoc]
      exact (lexes_tableSql u.table u.tableAlias).append (hjoin.append hrest)
        (Opens.append (by decide +kernel) _)

theorem inert_fromTokens (j : Join) :
    Inert (.word "1" :: .word "FROM" :: j.fromTokens)
      ((.word "1" :: .word "FROM" :: j.fromTokens : List Token).map .token) := by
  refine inert_plain ?_
  unfold Join.fromTokens
  cases j.junction with
  | none => rfl
  | some u => rfl

/-- What a join demands is read as such. -/
theorem reads_onFragments {j : Join} (h : j.Over P) :
    List.Forall₂ (fun f r => Reads f.sql r) j.onFragments j.onReadings := by
  have hon : Reads (Fragment.ofText j.on.sql).sql (.comparison j.on.tokens) := by
    rw [Fragment.sql_ofText]
    exact ⟨_, lexes_correlation j.on,
      (inert_correlation j.on).comparison (by simp [Correlation.tokens, Column.tokens])⟩
  refine .cons hon ?_
  split
  · exact .cons (Test.reads_test (Test.over_alive h.mark j.tableAlias)) .nil
  · exact .nil

/-- A search for rows behind a join as tokens, with those of what must hold of them. -/
def Join.existTokens (j : Join) (ts : List Token) : List Token :=
  .existsWord :: .opening ::
    (.selectWord :: ((.word "1" :: .word "FROM" :: j.fromTokens) ++ .whereWord :: ts) ++ [.closing])

theorem lexes_exist (j : Join) {fs : List Fragment} {ts : List Token}
    (h : Lexes (Fragment.joined " AND " (j.onFragments ++ fs)).sql ts) :
    Lexes (Fragment.ofText "EXISTS (SELECT 1" ++ Predicate.writeBehind j fs ++
      Fragment.ofText ")").sql (j.existTokens ts) := by
  have hbegin : Lexes "EXISTS (SELECT 1" [.existsWord, .opening, .selectWord, .word "1"] := by
    decide +kernel
  have hfrom : Closed " FROM " [.word "FROM"] := by decide +kernel
  have hwhere : Closed " WHERE " [.whereWord] := by decide +kernel
  have hend : Lexes ")" [.closing] := by decide +kernel
  -- from the end on: what must hold, the tables before it, and what begins the query
  have hcondition := hwhere.append (h.append hend (by decide +kernel))
  have htables := hfrom.append
    ((lexes_fromSql j).append hcondition (Opens.append (by decide +kernel) _))
  have hwhole := hbegin.append htables (Opens.append (by decide +kernel) _)
  simpa [Predicate.writeBehind, Join.existTokens, String.append_assoc] using hwhole

/-- A search for rows behind a join is read as one, and what holds of them is a conjunction. -/
theorem reads_exist {j : Join} {fs : List Fragment} (hj : j.Over P)
    (h : List.Forall₂ (fun f r => Reads f.sql r) fs rs) :
    Reads (Fragment.ofText "EXISTS (SELECT 1" ++ Predicate.writeBehind j fs ++
        Fragment.ofText ")").sql
      (.exist j.query (.conjoined (j.onReadings ++ rs))) := by
  obtain ⟨tss, hlex, hall⟩ :=
    lexes_joined closed_and opens_and (List.rel_append (reads_onFragments hj) h)
  have hgroup := yields_where (inert_fromTokens j) hall (by simp [Join.onReadings])
  exact ⟨_, lexes_exist j hlex, hgroup.exist⟩

/-! ## Predicates -/

namespace Predicate

mutual

/-- What a predicate says. -/
def reading : Predicate → Reading
  | constant b => .comparison [.word (if b then "TRUE" else "FALSE")]
  | test t => t.reading
  | conj ps => .conjoined (readings ps)
  | disj ps => .disjoined (readings ps)
  | neg p => .neg (reading p)
  | exist j p => .exist j.query (.conjoined (j.onReadings ++ [reading p]))

/-- What several predicates say. -/
def readings : List Predicate → List Reading
  | [] => []
  | p :: ps => reading p :: readings ps

end

/-- There is something in each group of a predicate. -/
inductive Filled : Predicate → Prop where
  /-- There is no group. -/
  | constant (b : Bool) : Filled (.constant b)
  /-- There is no group. -/
  | test (t : Test) : Filled (.test t)
  /-- There are parts. -/
  | conj {ps : List Predicate} (hne : ps ≠ []) (h : ∀ p ∈ ps, Filled p) : Filled (.conj ps)
  /-- There are parts. -/
  | disj {ps : List Predicate} (hne : ps ≠ []) (h : ∀ p ∈ ps, Filled p) : Filled (.disj ps)
  /-- There is something in each group of what is negated. -/
  | neg {p : Predicate} (h : Filled p) : Filled (.neg p)
  /-- There is something in each group behind the join. -/
  | exist (j : Join) {p : Predicate} (h : Filled p) : Filled (.exist j p)

theorem readings_eq_map (ps : List Predicate) : readings ps = ps.map reading := by
  induction ps with
  | nil => rfl
  | cons p ps ih => rw [readings, ih, List.map_cons]

theorem reading_exist (j : Join) (p : Predicate) :
    (exist j p).reading = .exist j.query (.conj (j.onReadings ++ [p.reading])) := by
  rw [reading, Reading.conjoined_of_length]
  simp [Join.onReadings]

/-- What each predicate's fragment has to do with something, all of them have to do with theirs. -/
theorem forall₂_writeAll {α : Type} {R : Fragment → α → Prop} {g : Predicate → α}
    {ps : List Predicate} (h : ∀ p ∈ ps, R p.write (g p)) :
    List.Forall₂ R (writeAll ps) (ps.map g) := by
  induction ps with
  | nil => exact .nil
  | cons p ps ih =>
      obtain ⟨hp, hps⟩ := List.forall_mem_cons.1 h
      exact .cons hp (ih hps)

theorem forall₂_reads {ps : List Predicate} (h : ∀ p ∈ ps, Reads p.write.sql p.reading) :
    List.Forall₂ (fun f r => Reads f.sql r) (writeAll ps) (ps.map reading) :=
  forall₂_writeAll h

end Predicate

open Predicate

variable {p : Predicate} {ps : List Predicate}

/-- **The text of a predicate says what the predicate is**, if there is something in each group. -/
theorem reads_write (hover : p.Over P) (hfilled : p.Filled) : Reads p.write.sql p.reading := by
  induction hover with
  | constant b =>
      cases b with
      | true => exact ⟨[.word "TRUE"], by decide +kernel, (inert_plain rfl).forms rfl⟩
      | false => exact ⟨[.word "FALSE"], by decide +kernel, (inert_plain rfl).forms rfl⟩
  | test t h => exact Test.reads_test h
  | conj ps _ ih =>
      cases hfilled with
      | conj hne hall =>
          obtain ⟨tss, hlex, hforms⟩ := lexes_joined closed_and opens_and
            (forall₂_reads fun p hp => ih p hp (hall p hp))
          have hgroup := yields_conjoined hforms (by simpa using hne)
          rw [reading, readings_eq_map, write, sql_parenthesized]
          exact ⟨_, hlex.parenthesized, hgroup.forms⟩
  | disj ps _ ih =>
      cases hfilled with
      | disj hne hall =>
          obtain ⟨tss, hlex, hforms⟩ := lexes_joined closed_or opens_or
            (forall₂_reads fun p hp => ih p hp (hall p hp))
          have hgroup := yields_disjoined hforms (by simpa using hne)
          rw [reading, readings_eq_map, write, sql_parenthesized]
          exact ⟨_, hlex.parenthesized, hgroup.forms⟩
  | neg p _ ih =>
      cases hfilled with
      | neg hp =>
          rw [reading, write, Fragment.sql_append, Fragment.sql_ofText, sql_parenthesized]
          exact (ih hp).parenthesized.not
  | exist j p hj _ ih =>
      cases hfilled with
      | exist _ hp => exact reads_exist hj (.cons (ih hp) .nil)

/-! ## Empty groups -/

/-- Somewhere among the tokens parentheses stand around nothing. -/
def HoldsEmptyPair (ts : List Token) : Prop :=
  [.opening, .closing] <:+: ts

/-- The text is cut into tokens, and the property holds unless there is an empty pair of
parentheses. -/
def LexesUnlessEmpty (s : String) (q : Prop) : Prop :=
  ∃ ts, Lexes s ts ∧ (q ∨ HoldsEmptyPair ts)

theorem HoldsEmptyPair.within {ts : List Token} (h : HoldsEmptyPair ts)
    (before after : List Token) : HoldsEmptyPair (before ++ ts ++ after) :=
  h.trans (List.infix_append before ts after)

/-- Each of several texts stands among them when they are put together. -/
theorem infix_intercalate {sep ts : List Token} {tss : List (List Token)} (h : ts ∈ tss) :
    ts <:+: sep.intercalate tss := by
  induction tss with
  | nil => cases h
  | cons us tss ih =>
      cases tss with
      | nil =>
          obtain rfl := List.mem_singleton.1 h
          exact ⟨[], [], by simp⟩
      | cons vs tss =>
          rw [List.intercalate_cons_cons]
          rcases List.mem_cons.1 h with rfl | h
          · exact (List.prefix_append ts _).isInfix.trans (List.prefix_append _ _).isInfix
          · exact (ih h).trans (List.suffix_append _ _).isInfix

/-- If each of several texts has its property unless it holds an empty pair of parentheses, then all
properties hold unless there is such a pair where the texts are put together. -/
theorem forall_or_holdsEmptyPair (sep : Token) {tss : List (List Token)} {qs : List Prop}
    (h : List.Forall₂ (fun ts q => q ∨ HoldsEmptyPair ts) tss qs) :
    (∀ q ∈ qs, q) ∨ HoldsEmptyPair ([sep].intercalate tss) := by
  have hpart : (∀ q ∈ qs, q) ∨ ∃ ts ∈ tss, HoldsEmptyPair ts := by
    induction h with
    | nil => exact .inl (List.forall_mem_nil _)
    | cons hfirst _ ih =>
        simp only [List.forall_mem_cons, List.exists_mem_cons_iff]
        tauto
  refine hpart.imp_right ?_
  rintro ⟨ts, hts, hpair⟩
  exact hpair.trans (infix_intercalate hts)

/-- The parts of a group have something in each of their groups, and there are some, or there is an
empty pair of parentheses. -/
theorem filled_or_holdsEmptyPair {sep : Token} {tss : List (List Token)}
    (h : List.Forall₂ (fun ts q => q ∨ HoldsEmptyPair ts) tss (ps.map Filled)) :
    (ps ≠ [] ∧ ∀ p ∈ ps, p.Filled) ∨
      HoldsEmptyPair (.opening :: ([sep].intercalate tss ++ [.closing])) := by
  cases ps with
  | nil =>
      cases h
      exact .inr List.infix_rfl
  | cons p ps =>
      refine (forall_or_holdsEmptyPair sep h).imp (fun hall => ?_) fun hpair => ?_
      · exact ⟨List.cons_ne_nil p ps, fun q hq => hall _ (List.mem_map_of_mem hq)⟩
      · exact hpair.within [.opening] [.closing]

/-- What must all hold is cut into tokens, if each of the conditions is. -/
theorem lexes_members {fs : List Fragment} (hfs : List.Forall₂ (fun f r => Reads f.sql r) fs rs)
    (hps : ∀ p ∈ ps, LexesUnlessEmpty p.write.sql p.Filled) :
    LexesUnlessEmpty (Fragment.joined " AND " (fs ++ writeAll ps)).sql (∀ p ∈ ps, p.Filled) := by
  have hfirst : List.Forall₂ (fun f q => LexesUnlessEmpty f.sql q) fs (rs.map fun _ => True) := by
    rw [List.forall₂_map_right_iff]
    refine hfs.imp ?_
    rintro f r ⟨ts, hlex, -⟩
    exact ⟨ts, hlex, .inl trivial⟩
  have hrest : List.Forall₂ (fun f q => LexesUnlessEmpty f.sql q) (writeAll ps) (ps.map Filled) :=
    forall₂_writeAll hps
  obtain ⟨tss, hlex, hall⟩ := lexes_joined closed_and opens_and (List.rel_append hfirst hrest)
  refine ⟨_, hlex, (forall_or_holdsEmptyPair .andWord hall).imp_left fun h p hp => ?_⟩
  exact h _ (List.mem_append_right _ (List.mem_map_of_mem hp))

/-- A group is cut into tokens, if its parts are. -/
theorem lexes_group {separator : String} {sep : Token} (hclosed : Closed separator [sep])
    (hopens : Opens separator) (hps : ∀ p ∈ ps, LexesUnlessEmpty p.write.sql p.Filled) :
    LexesUnlessEmpty (Fragment.parenthesized (Fragment.joined separator (writeAll ps))).sql
      (ps ≠ [] ∧ ∀ p ∈ ps, p.Filled) := by
  have hparts : List.Forall₂ (fun f q => LexesUnlessEmpty f.sql q) (writeAll ps) (ps.map Filled) :=
    forall₂_writeAll hps
  obtain ⟨tss, hlex, hall⟩ := lexes_joined hclosed hopens hparts
  rw [sql_parenthesized]
  exact ⟨_, hlex.parenthesized, filled_or_holdsEmptyPair hall⟩

/-- A predicate is cut into tokens, among which there is an empty pair of parentheses if one of its
groups is empty. -/
theorem lexes_write (hover : p.Over P) : LexesUnlessEmpty p.write.sql p.Filled := by
  induction hover with
  | constant b =>
      obtain ⟨ts, hlex, -⟩ := reads_write (P := P) (.constant b) (.constant b)
      exact ⟨ts, hlex, .inl (.constant b)⟩
  | test t h =>
      obtain ⟨ts, hlex, -⟩ := Test.reads_test h
      exact ⟨ts, hlex, .inl (.test t)⟩
  | conj ps _ ih =>
      obtain ⟨ts, hlex, hfilled⟩ := lexes_group closed_and opens_and ih
      exact ⟨ts, hlex, hfilled.imp_left fun h => .conj h.1 h.2⟩
  | disj ps _ ih =>
      obtain ⟨ts, hlex, hfilled⟩ := lexes_group closed_or opens_or ih
      exact ⟨ts, hlex, hfilled.imp_left fun h => .disj h.1 h.2⟩
  | neg p _ ih =>
      obtain ⟨ts, hlex, hfilled⟩ := ih
      have hnot : Closed "NOT " [.notWord] := by decide +kernel
      rw [write, Fragment.sql_append, Fragment.sql_ofText, sql_parenthesized]
      refine ⟨_, hnot.append hlex.parenthesized, hfilled.imp .neg fun hpair => ?_⟩
      exact hpair.within [.notWord, .opening] [.closing]
  | exist j p hj _ ih =>
      have hinner : ∀ q ∈ [p], LexesUnlessEmpty q.write.sql q.Filled :=
        List.forall_mem_singleton.2 ih
      obtain ⟨ts, hlex, hfilled⟩ := lexes_members (reads_onFragments hj) hinner
      rw [List.forall_mem_singleton] at hfilled
      refine ⟨_, lexes_exist j hlex, hfilled.imp (.exist j) fun hpair => ?_⟩
      have hwithin := hpair.within (.existsWord :: .opening ::
        .selectWord :: .word "1" :: .word "FROM" :: j.fromTokens ++ [.whereWord]) [.closing]
      simpa [Join.existTokens] using hwithin

/-- **When conditions can be read**: it is when there is something in each group of theirs, and then
they are read as what they are. -/
theorem readMembers_joined_iff {fs : List Fragment} {found : List Reading}
    (hfs : List.Forall₂ (fun f r => Reads f.sql r) fs rs) (hover : ∀ p ∈ ps, p.Over P)
    (hne : rs ++ ps.map reading ≠ []) :
    readMembers (Fragment.joined " AND " (fs ++ writeAll ps)).sql = some found ↔
      (∀ p ∈ ps, p.Filled) ∧ found = rs ++ ps.map reading := by
  have hread (hfilled : ∀ p ∈ ps, p.Filled) :
      readMembers (Fragment.joined " AND " (fs ++ writeAll ps)).sql =
        some (rs ++ ps.map reading) := by
    obtain ⟨tss, hlex, hforms⟩ := lexes_joined closed_and opens_and
      (List.rel_append hfs (forall₂_reads fun p hp => reads_write (hover p hp) (hfilled p hp)))
    exact (readMembers_eq hlex hforms hne).1
  constructor
  · intro h
    have hfilled : ∀ p ∈ ps, p.Filled := by
      obtain ⟨ts, hlex, hgrouped⟩ := grouped_of_readMembers h
      obtain ⟨us, hlexes, hall⟩ := lexes_members hfs fun p hp => lexes_write (hover p hp)
      obtain rfl : ts = us := Option.some.inj (hlex.symm.trans hlexes)
      exact hall.resolve_right hgrouped.filled
    exact ⟨hfilled, Option.some.inj (h.symm.trans (hread hfilled))⟩
  · rintro ⟨hfilled, rfl⟩
    exact hread hfilled

theorem readMembers_writeConditions_iff {found : List Reading} (hover : ∀ p ∈ ps, p.Over P)
    (hne : ps ≠ []) :
    readMembers (writeConditions ps).sql = some found ↔
      (∀ p ∈ ps, p.Filled) ∧ found = ps.map reading := by
  have hjoined : [] ++ ps.map reading ≠ [] := by simpa using hne
  rw [writeConditions, ← List.nil_append (writeAll ps), ← List.nil_append (ps.map reading)]
  exact readMembers_joined_iff .nil hover hjoined

/-- **What the text of several predicates says**: each of them must hold, and nothing else. -/
theorem readMembers_writeConditions (hover : ∀ p ∈ ps, p.Over P)
    (hfilled : ∀ p ∈ ps, p.Filled) (hne : ps ≠ []) :
    readMembers (writeConditions ps).sql = some (ps.map reading) ∧
      ∃ ts, Lexes (writeConditions ps).sql ts ∧ Grouped ts := by
  have hread : readMembers (writeConditions ps).sql = some (ps.map reading) :=
    (readMembers_writeConditions_iff hover hne).2 ⟨hfilled, rfl⟩
  exact ⟨hread, grouped_of_readMembers hread⟩

end Warden.Sql
