import Warden.Proofs.Item.Allowance
import Warden.Proofs.Item.Placeholder

/-! # Columns of written rows

A statement that adds or changes rows lists columns, each beside its value (`Sql.Change.values`). It
is well formed if no column is listed twice (**`Sql.Change.Distinct`**), one is listed at all
(**`Sql.Change.Assigns`**) and its text has one expression for each (**`Sql.Change.Balanced`**).

The columns are whatever is left of what was sent once everything behind relations has been taken
out, and keys and the grant's own values have been put in. That no column is listed twice follows
from the way in which values are put under their names. That one is listed does not: a row to which
nothing is written is added all the same, where a change of such a row would write its key
(`Context.updatedValues`). **`Payload.AddsBlank`** has the statements that this is true of, for the
item's own row and for rows behind its relations, and no other statement is without a column
(**`columns_well_formed`**). -/

namespace Warden

open Sql

/-! ## Columns of statements -/

namespace Sql.Change

/-- No column is written twice. -/
def Distinct (s : Change) : Prop :=
  (Named.names s.values).Nodup

/-- A statement that adds or changes rows gives a value to some column. -/
def Assigns : Change → Prop
  | .insert _ values _ | .update _ values _ _ => values ≠ []
  | .mark _ _ _ | .delete _ _ _ | .link _ _ _ _ _ => True

end Sql.Change

/-- What is sent in the place of a value of a column: a placeholder, or the geometry of one. -/
def Sql.Written.expression : Written → String
  | .plain _ | .json _ => "%s"
  | .geometry _ => "ST_GeomFromGeoJSON(%s)"

theorem Sql.Written.sql_write (w : Written) : w.write.sql = w.expression := by
  cases w <;> rfl

namespace Sql.Change

/-- The text that is sent to add a row lists its columns and, behind them and in the same order, one
expression for each. The text that is sent to change rows sets each column to one expression. -/
def Balanced : Change → Prop
  | .insert table values key =>
      (Statement.change (insert table values key)).sent.text = "INSERT INTO " ++
        identifier table ++ " (" ++
        String.intercalate ", " (values.map fun entry => identifier entry.1) ++ ") VALUES (" ++
        String.intercalate ", " (values.map fun entry => entry.2.expression) ++ ") RETURNING " ++
        identifier key
  | .update table values conditions key =>
      ∃ rest, (Statement.change (update table values conditions key)).sent.text = "UPDATE " ++
        tableSql table baseAlias ++ " SET " ++ String.intercalate ", " (values.map fun entry =>
          identifier entry.1 ++ " = " ++ entry.2.expression) ++ rest
  | .mark _ _ _ | .delete _ _ _ | .link _ _ _ _ _ => True

theorem balanced (s : Change) : s.Balanced := by
  cases s with
  | insert table values key =>
      rw [Balanced, Statement.sent_eq]
      simp [Statement.write, write, Fragment.sql_joined, Function.comp_def, Written.sql_write,
        String.append_assoc]
  | update table values conditions key =>
      refine ⟨(writeWhere conditions key).sql, ?_⟩
      rw [Statement.sent_eq]
      simp [Statement.write, write, Fragment.sql_joined, Function.comp_def, Written.sql_write,
        String.append_assoc]
  | _ => trivial

end Sql.Change

variable {k : Catalog} {collection : String} {values : Record} {s : Change}

/-- The columns that are written are those of the values. -/
theorem columns_writtenAll {c : Collection} {ws : List (String × Written)}
    (h : writtenAll c values = .ok ws) :
    ((Named.names ws).Nodup ↔ (Named.names values).Nodup) ∧ (ws ≠ [] ↔ values ≠ []) := by
  have hnames : Named.names ws = Named.names values := names_writtenAll h
  rw [hnames, ne_eq, ne_eq, ← Named.names_eq_nil, hnames, Named.names_eq_nil]
  exact ⟨Iff.rfl, Iff.rfl⟩

theorem columns_insertRow (h : insertRow k collection values = .ok s) :
    (s.Distinct ↔ (Named.names values).Nodup) ∧ (s.Assigns ↔ values ≠ []) := by
  obtain ⟨c, -, h⟩ := Outcome.bind_eq_ok.1 h
  obtain ⟨ws, hws, h⟩ := Outcome.bind_eq_ok.1 h
  obtain rfl := Outcome.pure_eq_ok.1 h
  exact columns_writtenAll hws

theorem columns_updateRows {f : Filter} {relConditions : Named Filter}
    (h : updateRows k collection f values relConditions = .ok s) :
    (s.Distinct ↔ (Named.names values).Nodup) ∧ (s.Assigns ↔ values ≠ []) := by
  obtain ⟨c, -, h⟩ := Outcome.bind_eq_ok.1 h
  obtain ⟨ws, hws, h⟩ := Outcome.bind_eq_ok.1 h
  obtain ⟨conditions, -, h⟩ := Outcome.bind_eq_ok.1 h
  obtain rfl := Outcome.pure_eq_ok.1 h
  exact columns_writtenAll hws

/-- A statement that links rows writes no columns beside those of the joining table. -/
theorem columns_linkRows {r : Relation} {source : Value} {targets : List Value}
    (h : linkRows r source targets = .ok s) : s.Distinct ∧ s.Assigns := by
  obtain ⟨sourceColumn, -, h⟩ := Outcome.bind_eq_ok.1 h
  obtain ⟨targetColumn, -, h⟩ := Outcome.bind_eq_ok.1 h
  obtain ⟨table, -, h⟩ := Outcome.bind_eq_ok.1 h
  obtain rfl := Outcome.pure_eq_ok.1 h
  exact ⟨List.nodup_nil, trivial⟩

/-! ## Columns of payloads -/

/-- No row that is sent behind a relation has a name twice, as it is in every JSON object. -/
def SentOnce (data : Value) : Prop :=
  ∀ entries, data = .record entries →
    ∀ entry ∈ entries, ∀ row ∈ entry.2.rowsSent, (Named.names row).Nodup

/-- Nothing is written to the item's own row: there are no values, and no item is added in front of
it whose key would be one. -/
def Payload.RowBlank (p : Payload) : Prop :=
  p.values = [] ∧ ∀ w ∈ p.related, w.first? = none

/-- The statement adds a row behind a relation to which nothing is written. Rows that hold the key
of the item are never such rows. -/
def RelatedWrite.AddsBlank (k : Catalog) (w : RelatedWrite) (s : Change) : Prop :=
  w.relation.type ≠ .oneToMany ∧ [] ∈ w.rows ∧ insertRow k w.relation.target [] = .ok s

/-- The statement adds a row to which nothing is written: the item's own one, or one behind a
relation. -/
def Payload.AddsBlank (k : Catalog) (collection : String) (p : Payload) (s : Change) : Prop :=
  (p.RowBlank ∧ insertRow k collection [] = .ok s) ∨ ∃ w ∈ p.related, w.AddsBlank k s

/-- An item in front of a row is one whose key goes into the row. -/
theorem RelatedWrite.Ready.first?_eq_none {w : RelatedWrite} (h : w.Ready k)
    (hkey : w.keyColumn? = none) : w.first? = none := by
  cases hfirst : w.first? with
  | none => rfl
  | some row =>
      obtain ⟨⟨column, hcolumn⟩, -⟩ := h row hfirst
      rw [keyColumn?, hfirst, Option.bind_some, hcolumn] at hkey
      cases hkey

namespace Payload

variable {c : Collection} {grant : Grant} {p : Payload}

/-- Values are put under their names, so that no name stands twice among them. -/
theorem nodup_names_of_prepare {r : Resolver} {data : Value}
    (h : prepare k c grant r data = .ok p) : (Named.names p.values).Nodup := by
  cases data with
  | record entries =>
      obtain ⟨sent, hsent, h⟩ := Outcome.bind_eq_ok.1 h
      obtain ⟨resolved, -, rfl⟩ := exists_putAll_of_setDefault h
      refine Named.nodup_names_putAll ?_ resolved
      have hempty : (Named.names (⟨[], []⟩ : Payload).values).Nodup := List.nodup_nil
      refine Outcome.of_foldlM (P := fun p => (Named.names p.values).Nodup) ?_ hempty hsent
      rintro p ⟨name, v⟩ q hp hq
      rcases cases_of_addEntry hq with ⟨-, -, -, rfl⟩ | ⟨_, _, -, -, -, -, -, rfl⟩ |
        ⟨_, _, -, -, -, -, rfl⟩
      · exact Named.nodup_names_insert hp _ _
      · exact Named.nodup_names_insert hp _ _
      · exact hp
  | _ => exact absurd h (Outcome.refuse_ne_ok _ _)

/-- The rows behind relations are among those that were sent. -/
theorem nodup_names_of_within {entries : Record} (hentries : SentOnce (.record entries))
    (h : p.Within k c grant entries) :
    ∀ w ∈ p.related, ∀ row ∈ w.rows, (Named.names row).Nodup := by
  intro w hw row hrow
  obtain ⟨entry, hentry, sent, hitems, hsends⟩ := h.exists_sends hw
  rw [hsends.rows, ← Collection.rowsSent_of_itemsSent? hitems] at hrow
  exact hentries entries rfl entry hentry row hrow

/-- No column of a row that a payload gives is written twice. -/
theorem Stores.nodup_names (h : p.Stores k values) (hp : (Named.names p.values).Nodup) :
    (Named.names values).Nodup := by
  obtain ⟨keys, -, rfl⟩ := h.keys
  exact Named.nodup_names_putAll hp _

/-- A row of a payload has no columns exactly if nothing is written to it. -/
theorem stores_nil_iff : p.Stores k [] ↔ p.RowBlank := by
  constructor
  · rintro ⟨hready, keys, hlength, hvalues⟩
    obtain ⟨hvalues, hzip⟩ := Named.putAll_eq_nil.1 hvalues.symm
    have hcolumns : keyColumns p.related = [] := by
      rcases List.zip_eq_nil_iff.1 hzip with hcolumns | rfl
      · exact hcolumns
      · exact List.length_eq_zero_iff.1 hlength.symm
    refine ⟨hvalues, fun w hw => ?_⟩
    exact (hready w hw).first?_eq_none (List.filterMap_eq_nil_iff.1 hcolumns w hw)
  · rintro ⟨hvalues, hfirst⟩
    have hcolumns : keyColumns p.related = [] := by
      refine List.filterMap_eq_nil_iff.2 fun w hw => ?_
      rw [RelatedWrite.keyColumn?, hfirst w hw, Option.bind_none]
    refine ⟨fun w hw row hrow => ?_, [], ?_, ?_⟩
    · rw [hfirst w hw] at hrow
      cases hrow
    · rw [hcolumns]
      rfl
    · rw [withKeys, hvalues, hcolumns]
      rfl

end Payload

/-- The statements behind a relation write different columns, and one at least if they do not add a
row to which nothing is written. -/
theorem RelatedWrite.columns_of_issues {w : RelatedWrite}
    (hrows : ∀ row ∈ w.rows, (Named.names row).Nodup) (h : w.Issues k (.change s)) :
    s.Distinct ∧ (s.Assigns ∨ w.AddsBlank k s) := by
  cases h with
  | @add row _ hrow htype hs =>
      obtain ⟨hdistinct, hassigns⟩ := columns_insertRow hs
      refine ⟨hdistinct.2 (hrows row hrow), ?_⟩
      by_cases hblank : row = []
      · subst hblank
        exact .inr ⟨htype, hrow, hs⟩
      · exact .inl (hassigns.2 hblank)
  | addOwned key hrow _ hs =>
      obtain ⟨hdistinct, hassigns⟩ := columns_insertRow hs
      exact ⟨hdistinct.2 (Named.nodup_names_insert (hrows _ hrow) _ key),
        .inl (hassigns.2 (Named.insert_ne_nil _ _ key))⟩
  | adopt key _ hs =>
      obtain ⟨hdistinct, hassigns⟩ := columns_updateRows hs
      exact ⟨hdistinct.2 (List.pairwise_singleton _ _), .inl (hassigns.2 (List.cons_ne_nil _ _))⟩
  | link _ _ hs =>
      obtain ⟨hdistinct, hassigns⟩ := columns_linkRows hs
      exact ⟨hdistinct, .inl hassigns⟩

namespace Context

open Dialogue

variable {x : Context} {key : String} {data : Value} {entries : Record}

/-- The values that a changed row gets are never none. -/
theorem updatedValues_ne_nil (c : Collection) (key : Value) (values : Record) :
    updatedValues c key values ≠ [] := by
  rw [updatedValues]
  split
  case isTrue => exact List.cons_ne_nil _ _
  case isFalse h => exact mt List.isEmpty_iff.2 h

theorem columns_of_says_createItem (hdata : SentOnce data)
    (hs : Says (.execute (.change s)) (x.createItem collection data)) :
    s.Distinct ∧ (s.Assigns ∨
      ∃ p, x.creation collection data = .ok p ∧ p.AddsBlank x.catalog collection s) := by
  obtain ⟨p, hp, h⟩ := issues_of_says_createItem hs
  obtain ⟨grant, c, -, -, hprepared, -⟩ := creation_eq_ok.1 hp
  obtain ⟨entries, rfl, hwithin⟩ := Payload.within_of_prepare hprepared
  rcases h with ⟨values, change, hvalues, hchange, heq⟩ | ⟨w, hw, h⟩
  · cases heq
    obtain ⟨hdistinct, hassigns⟩ := columns_insertRow hchange
    refine ⟨hdistinct.2 (hvalues.nodup_names (Payload.nodup_names_of_prepare hprepared)), ?_⟩
    by_cases hblank : values = []
    · subst hblank
      exact .inr ⟨p, hp, .inl ⟨Payload.stores_nil_iff.1 hvalues, hchange⟩⟩
    · exact .inl (hassigns.2 hblank)
  · obtain ⟨hdistinct, hassigns⟩ :=
      RelatedWrite.columns_of_issues (Payload.nodup_names_of_within hdata hwithin w hw) h
    exact ⟨hdistinct, hassigns.imp_right fun hblank => ⟨p, hp, .inr ⟨w, hw, hblank⟩⟩⟩

theorem columns_of_says_updateItem (hentries : SentOnce (.record entries))
    (hs : Says (.execute (.change s)) (x.updateItem collection key entries)) :
    s.Distinct ∧ (s.Assigns ∨ ∃ r, x.change collection key entries = .ok r ∧
      ∃ w ∈ r.payload.related, w.AddsBlank x.catalog s) := by
  obtain ⟨r, hr, h⟩ := issues_of_says_updateItem hs
  obtain ⟨grant, -, hprepared⟩ := prepare_of_change hr
  obtain ⟨_, hdata, hwithin⟩ := Payload.within_of_prepare hprepared
  cases hdata
  rcases h with ⟨stored, change, hstored, hchange, heq⟩ | ⟨w, hw, h⟩
  · cases heq
    obtain ⟨hdistinct, hassigns⟩ := columns_updateRows hchange
    refine ⟨hdistinct.2 ?_, .inl (hassigns.2 (updatedValues_ne_nil _ _ _))⟩
    rw [updatedValues]
    split
    · exact List.pairwise_singleton _ _
    · exact hstored.nodup_names (Payload.nodup_names_of_prepare hprepared)
  · obtain ⟨hdistinct, hassigns⟩ :=
      RelatedWrite.columns_of_issues (Payload.nodup_names_of_within hentries hwithin w hw) h
    exact ⟨hdistinct, hassigns.imp_right fun hblank => ⟨r, hr, w, hw, hblank⟩⟩

/-- The row of a new item gets no columns exactly if nothing is written to it. -/
theorem exists_addsRow_nil_iff {p : Payload} (hp : x.creation collection data = .ok p) :
    (∃ db past, x.AddsRow collection data db past []) ↔ p.RowBlank := by
  obtain ⟨-, c, -, hc, -, -⟩ := creation_eq_ok.1 hp
  have hinsert : ∃ s, insertRow x.catalog collection [] = .ok s := by
    rw [insertRow, hc]
    exact ⟨_, rfl⟩
  rw [exists_addsRow_iff hp, Payload.stores_nil_iff, and_iff_left hinsert]

end Context

/-- **Which columns are written.** No statement for a new item or for a changed one writes a column
twice, and one that adds or changes rows writes some column, except where a row is added to which
nothing is written. That row is the new item's own one exactly if nothing was sent for it, or one
behind a relation; the row of a changed item is always given some value. There is one expression for
each column in every text that is sent. -/
theorem columns_well_formed (x : Context) (collection : String) :
    (∀ data, SentOnce data → ∀ s,
      Dialogue.Says (.execute (.change s)) (x.createItem collection data) →
        s.Distinct ∧ (s.Assigns ∨ ∃ p, x.creation collection data = .ok p ∧
          p.AddsBlank x.catalog collection s)) ∧
    (∀ data p, x.creation collection data = .ok p →
      ((∃ db past, x.AddsRow collection data db past []) ↔ p.RowBlank)) ∧
    (∀ key entries, SentOnce (.record entries) → ∀ s,
      Dialogue.Says (.execute (.change s)) (x.updateItem collection key entries) →
        s.Distinct ∧ (s.Assigns ∨ ∃ r, x.change collection key entries = .ok r ∧
          ∃ w ∈ r.payload.related, w.AddsBlank x.catalog s)) ∧
    ∀ s : Change, s.Balanced :=
  ⟨fun _ hdata _ => Context.columns_of_says_createItem hdata,
    fun _ _ => Context.exists_addsRow_nil_iff,
    fun _ _ hentries _ => Context.columns_of_says_updateItem hentries, Change.balanced⟩

/-- A post with a title and a new author writes columns of both rows. -/
theorem columns_well_formed_titledPost :
    SentOnce (.record Payload.titledPost) ∧
    (Sample.blog []).creation "posts" (.record Payload.titledPost) =
      .ok (Sample.authored [("title", .text "t")]) ∧
    (∀ s, Dialogue.Says (.execute (.change s))
        ((Sample.blog []).createItem "posts" (.record Payload.titledPost)) →
      s.Distinct ∧ s.Assigns) ∧
    ¬ ∃ db past, (Sample.blog []).AddsRow "posts" (.record Payload.titledPost) db past [] := by
  have hsent : SentOnce (.record Payload.titledPost) := by
    rintro _ ⟨⟩
    decide
  have hcreation : (Sample.blog []).creation "posts" (.record Payload.titledPost) =
      .ok (Sample.authored [("title", .text "t")]) := rfl
  obtain ⟨hcreate, hrow, -⟩ := columns_well_formed (Sample.blog []) "posts"
  have hblank : ¬ (Sample.authored [("title", .text "t")]).RowBlank :=
    fun h => List.cons_ne_nil _ _ h.1
  refine ⟨hsent, hcreation, fun s hs => ?_, mt (hrow _ _ hcreation).1 hblank⟩
  obtain ⟨hdistinct, hassigns | ⟨p, hp, ⟨hown, -⟩ | ⟨w, hw, -, hnested, -⟩⟩⟩ := hcreate _ hsent s hs
  · exact ⟨hdistinct, hassigns⟩
  · cases hcreation.symm.trans hp
    exact absurd hown hblank
  · cases hcreation.symm.trans hp
    obtain rfl := List.mem_singleton.1 hw
    exact absurd (List.mem_singleton.1 hnested) (List.cons_ne_nil _ _).symm

/-- A post for which nothing is sent is added by a statement that writes no column. -/
theorem blank_post_added :
    SentOnce (.record []) ∧
    ((Sample.blog []).createItem "posts" (.record [])).run
        (Database.replying [.null, .text "p1"]) [] =
      ([.release, .commit, .execute (.change (.insert "posts" [] "id")), .connect],
        .ok (.text "p1")) ∧
    Fragment.sql (Change.insert "posts" [] "id").write =
      "INSERT INTO \"posts\" () VALUES () RETURNING \"id\"" ∧
    ¬ (Change.insert "posts" [] "id").Assigns := by
  refine ⟨?_, rfl, rfl, fun h => h rfl⟩
  rintro _ ⟨⟩
  exact List.forall_mem_nil _

end Warden
