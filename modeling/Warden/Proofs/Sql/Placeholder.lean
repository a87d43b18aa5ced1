import Warden.Proofs.Sql.Names
import Warden.Proofs.Sql.Rendering

/-! # Placeholders

The text of a statement is sent with the values that were collected beside it, and **`fill`** puts
each value where the next placeholder stands. A rendering lines up (**`Rendering.LinesUp`**) if what
it sends has a placeholder for each value and no other, and filling them gives the text in which
every value was written where it was generated.

A rendering lines up if the fragment that it writes has no per cent sign in its texts
(`Rendering.Writes.linesUp`). Only names could bring one in: everything else that is written is
fixed. -/

namespace Warden.Sql

/-! ## Filling placeholders -/

/-- How many placeholders stand in a text. -/
def placeholders : List Char → Nat
  | [] => 0
  | '%' :: 's' :: rest => placeholders rest + 1
  | _ :: rest => placeholders rest

/-- The text with the values, as they are written, in the places of its placeholders: one for each
and none left over. A per cent sign that begins no placeholder is not taken. -/
def fill : (text : List Char) → (values : List (List Char)) → Option (List Char)
  | [], [] => some []
  | [], _ :: _ => none
  | '%' :: 's' :: rest, v :: vs => (fill rest vs).map (v ++ ·)
  | '%' :: _, _ => none
  | c :: rest, vs => (fill rest vs).map (c :: ·)

theorem placeholders_cons {c : Char} (h : c ≠ '%') (rest : List Char) :
    placeholders (c :: rest) = placeholders rest := by
  rw [placeholders]
  rintro _ rfl
  exact absurd rfl h

theorem fill_cons {c : Char} (h : c ≠ '%') (rest : List Char) (values : List (List Char)) :
    fill (c :: rest) values = (fill rest values).map (c :: ·) := by
  rw [fill] <;> intros <;> exact absurd ‹c = '%'› h

/-- A text without a per cent sign stays as it is. -/
theorem placeholders_append {text : List Char} (h : '%' ∉ text) (rest : List Char) :
    placeholders (text ++ rest) = placeholders rest := by
  induction text with
  | nil => rfl
  | cons c text ih =>
      obtain ⟨hc, htext⟩ := not_or.1 (List.mem_cons.not.1 h)
      rw [List.cons_append, placeholders_cons (Ne.symm hc), ih htext]

theorem fill_append {text : List Char} (h : '%' ∉ text) (rest : List Char)
    (values : List (List Char)) :
    fill (text ++ rest) values = (fill rest values).map (text ++ ·) := by
  induction text with
  | nil => simp
  | cons c text ih =>
      obtain ⟨hc, htext⟩ := not_or.1 (List.mem_cons.not.1 h)
      rw [List.cons_append, fill_cons (Ne.symm hc), ih htext, Option.map_map]
      rfl

/-! ## Renderings that line up -/

/-- The values that a rendering collects line up with the placeholders of its text. -/
structure Rendering.LinesUp (r : Rendering String) : Prop where
  /-- There is a placeholder for each value and no other. -/
  count : placeholders r.sent.text.toList = r.sent.parameters.length
  /-- However values are written, with the k-th of those collected in the place of the k-th
  placeholder the text is the one in which each was written where it was generated. -/
  filled : ∀ shown : Parameter → String,
    fill r.sent.text.toList (r.sent.parameters.map fun p => (shown p).toList) =
      some (r.inPlace shown).toList

/-- The text has no per cent sign. -/
def Bare (s : String) : Prop :=
  '%' ∉ s.toList

namespace Fragment

/-- The texts of a fragment have no per cent sign. -/
def Bare (f : Fragment) : Prop :=
  ∀ s, Piece.text s ∈ f → Sql.Bare s

theorem placeholders_of_bare {f : Fragment} (h : f.Bare) :
    placeholders f.sql.toList = f.parameters.length := by
  induction f with
  | nil => rfl
  | cons piece f ih =>
      have hcount := ih fun s hs => h s (List.mem_cons_of_mem _ hs)
      cases piece with
      | text s =>
          have hsql : (sql (.text s :: f)).toList = s.toList ++ (sql f).toList := by
            simp [sql, pieceText]
          rw [hsql, placeholders_append (h s List.mem_cons_self), hcount]
          rfl
      | parameter p =>
          have hsql : (sql (.parameter p :: f)).toList = '%' :: 's' :: (sql f).toList := by
            simp [sql, pieceText, placeholder]
          rw [hsql, placeholders, hcount]
          rfl

theorem fill_of_bare {f : Fragment} (h : f.Bare) (shown : Parameter → String) :
    fill f.sql.toList (f.parameters.map fun p => (shown p).toList) =
      some (f.inPlace shown).toList := by
  induction f with
  | nil => rfl
  | cons piece f ih =>
      have hfilled := ih fun s hs => h s (List.mem_cons_of_mem _ hs)
      cases piece with
      | text s =>
          have hsql : (sql (.text s :: f)).toList = s.toList ++ (sql f).toList := by
            simp [sql, pieceText]
          rw [hsql, fill_append (h s List.mem_cons_self)]
          show (fill _ ((parameters f).map fun p => (shown p).toList)).map _ = _
          rw [hfilled, Option.map_some]
          simp [inPlace]
      | parameter p =>
          have hsql : (sql (.parameter p :: f)).toList = '%' :: 's' :: (sql f).toList := by
            simp [sql, pieceText, placeholder]
          rw [hsql]
          show fill _ ((shown p).toList :: (parameters f).map fun p => (shown p).toList) = _
          rw [fill, hfilled, Option.map_some]
          simp [inPlace]

end Fragment

/-- **Values line up with placeholders** if the texts around them have no per cent sign. -/
theorem Rendering.Writes.linesUp {r : Rendering String} {f : Fragment} (h : r.Writes f)
    (hf : f.Bare) : r.LinesUp where
  count := by rw [h.sent_eq, Fragment.placeholders_of_bare hf]
  filled shown := by rw [h.sent_eq, h.inPlace_eq, Fragment.fill_of_bare hf]

/-! ## Texts without a per cent sign -/

section Bare

variable {s t : String}

instance : DecidablePred Bare := fun s => inferInstanceAs (Decidable ('%' ∉ s.toList))

@[simp] theorem bare_append : Bare (s ++ t) ↔ Bare s ∧ Bare t := by
  simp [Bare]

theorem bare_expandChars {f : Char → List Char} (hf : ∀ c ∈ s.toList, '%' ∉ f c) :
    Bare (Text.expandChars f s) := by
  simp only [Bare, Text.expandChars, String.toList_ofList, List.mem_flatMap, not_exists, not_and]
  exact hf

theorem bare_doubled {c : Char} (h : Bare s) : Bare (doubled c s) := by
  refine bare_expandChars fun d hd => ?_
  have hne : '%' ≠ d := fun heq => h (heq ▸ hd)
  split <;> simp [hne]

theorem bare_identifier (h : Bare s) : Bare (identifier s) := by
  simp only [identifier, bare_append]
  exact ⟨⟨by decide, bare_doubled h⟩, by decide⟩

theorem bare_literal (h : Bare s) : Bare (literal s) := by
  simp only [literal, bare_append]
  exact ⟨⟨by decide, bare_doubled h⟩, by decide⟩

theorem bare_intercalate {ts : List String} (hs : Bare s) (hts : ∀ t ∈ ts, Bare t) :
    Bare (String.intercalate s ts) := by
  rw [Bare, String.toList_intercalate]
  induction ts with
  | nil => simp
  | cons t ts ih =>
      obtain ⟨ht, hrest⟩ := List.forall_mem_cons.1 hts
      cases ts with
      | nil =>
          rw [List.map_singleton, List.intercalate_singleton]
          exact ht
      | cons u ts =>
          have htail := ih hrest
          rw [List.map_cons] at htail ⊢
          rw [List.map_cons, List.intercalate_cons_cons]
          simp only [List.mem_append, not_or]
          exact ⟨⟨ht, hs⟩, htail⟩

theorem bare_aliasName (a : Alias) : Bare (aliasName a) := by
  simp only [aliasName, bare_append]
  refine ⟨by decide, fun h => ?_⟩
  have hdigit := Nat.isDigit_of_mem_toDigits (b := 10) (n := a) (by decide) (by decide)
    (by simpa using h)
  exact absurd hdigit (by decide)

end Bare

/-! ## Predicates without a per cent sign -/

namespace Fragment

variable {f g : Fragment} {fs : List Fragment} {separator s : String}

@[simp] theorem bare_nil : Bare [] :=
  fun _ hs => nomatch hs

@[simp] theorem bare_ofText : Bare (ofText s) ↔ Sql.Bare s := by
  simp [Bare, ofText]

@[simp] theorem bare_ofValue (v : Value) : Bare (ofValue v) := by
  simp [Bare, ofValue]

@[simp] theorem bare_ofJson (v : Value) : Bare (ofJson v) := by
  simp [Bare, ofJson]

@[simp] theorem bare_append : Bare (f ++ g) ↔ Bare f ∧ Bare g := by
  simp only [Bare, List.mem_append]
  constructor
  · intro h
    exact ⟨fun s hs => h s (.inl hs), fun s hs => h s (.inr hs)⟩
  · rintro ⟨hf, hg⟩ s (hs | hs)
    · exact hf s hs
    · exact hg s hs

theorem bare_ite {b : Prop} [Decidable b] (hf : Bare f) (hg : Bare g) :
    Bare (if b then f else g) := by
  split
  · exact hf
  · exact hg

theorem bare_joined (hs : Sql.Bare separator) (hfs : ∀ f ∈ fs, Bare f) :
    Bare (joined separator fs) :=
  joined_induction bare_nil (bare_ofText.2 hs) (fun _ _ hf hg => bare_append.2 ⟨hf, hg⟩) hfs

@[simp] theorem bare_parenthesized : Bare (parenthesized f) ↔ Bare f := by
  simp only [parenthesized, bare_append, bare_ofText]
  constructor
  · exact fun h => h.1.2
  · exact fun h => ⟨⟨by decide, h⟩, by decide⟩

end Fragment

theorem bare_column {c : Column} (h : Bare c.name) : Bare c.sql := by
  simp only [Column.sql, Sql.bare_append]
  exact ⟨⟨bare_aliasName _, by decide⟩, bare_identifier h⟩

theorem bare_tableSql {table : String} (h : Bare table) (a : Alias) : Bare (tableSql table a) := by
  simp only [tableSql, Sql.bare_append]
  exact ⟨⟨bare_identifier h, by decide⟩, bare_aliasName a⟩

/-- The known casts are fixed words. -/
theorem bare_cast {cast : String} (h : (castFamily? cast).isSome = true) : Bare cast := by
  obtain ⟨family, hfamily⟩ := Option.isSome_iff_exists.1 h
  obtain ⟨before, after, hcasts, -⟩ := List.lookup_eq_some_iff.1 hfamily
  have hall : ∀ entry ∈ castFamilies, Bare entry.1 := by decide
  exact hall (cast, family) (hcasts ▸ List.mem_append_right before List.mem_cons_self)

theorem bare_operand {o : Operand} (h : o.Over Bare) : Bare o.sql := by
  rw [Operand.sql]
  have hcolumn := bare_column h.column
  split
  · exact hcolumn
  · next cast hcast =>
      simp only [Sql.bare_append]
      exact ⟨⟨⟨by decide, hcolumn⟩, by decide⟩, bare_cast (h.cast cast hcast)⟩

theorem bare_comparator (c : Comparator) : Bare c.sql := by
  cases c <;> decide

theorem bare_geometrySql (geometry : String) : (Test.geometrySql geometry).Bare := by
  simp +decide [Test.geometrySql]

theorem bare_emptySql {o : Operand} (h : Bare o.sql) (kind : Container) :
    Bare (Test.emptySql kind o) := by
  cases kind <;> simp +decide [Test.emptySql, h]

theorem bare_spatialSql {o : Operand} (h : Bare o.sql) (s : Spatial) (geometry : String) :
    (Test.spatialSql s o geometry).Bare := by
  cases s <;> simp +decide [Test.spatialSql, Spatial.function, bare_geometrySql, h]

/-- A test brings no per cent sign into the text around its values. -/
theorem bare_test {t : Test} (h : t.operand.Over Bare) : t.write.Bare := by
  have ho := bare_operand h
  cases t with
  | compare o c v => simpa +decide [Test.write, bare_comparator] using ho
  | empty kind o => simpa [Test.write] using bare_emptySql ho kind
  | notEmpty kind o => simpa +decide [Test.write] using bare_emptySql ho kind
  | spatial s o geometry => exact bare_spatialSql ho s geometry
  | notSpatial s o geometry => simpa +decide [Test.write] using bare_spatialSql ho s geometry
  | near o geometry distance => simpa +decide [Test.write, bare_geometrySql] using ho
  | search c pattern => simpa +decide [Test.write] using bare_column h.column
  | _ => simpa +decide [Test.write] using ho

theorem bare_correlation {c : Correlation} (h : c.Over Bare) : Bare c.sql := by
  simp only [Correlation.sql, bare_append]
  exact ⟨⟨bare_column h.left, by decide⟩, bare_column h.right⟩

theorem bare_fromSql {j : Join} (h : j.Over Bare) : Bare j.fromSql := by
  have htable := bare_tableSql h.table j.tableAlias
  rw [Join.fromSql]
  split
  · exact htable
  · next u hu =>
      obtain ⟨hjunction, hon⟩ := h.junction u hu
      simp only [bare_append]
      exact ⟨⟨⟨⟨bare_tableSql hjunction _, by decide⟩, htable⟩, by decide⟩, bare_correlation hon⟩

theorem bare_onFragments {j : Join} (h : j.Over Bare) : ∀ f ∈ j.onFragments, f.Bare := by
  refine List.forall_mem_cons.2 ⟨Fragment.bare_ofText.2 (bare_correlation h.on), fun f hf => ?_⟩
  split at hf
  · rw [List.mem_singleton.1 hf]
    exact bare_test (Test.over_alive h.mark _)
  · cases hf

namespace Predicate

theorem bare_writeBehind {j : Join} (h : j.Over Bare) {conditions : List Fragment}
    (hconditions : ∀ f ∈ conditions, f.Bare) : (writeBehind j conditions).Bare := by
  rw [writeBehind, Fragment.bare_append, Fragment.bare_ofText]
  refine ⟨by simpa +decide using bare_fromSql h, Fragment.bare_joined (by decide) fun f hf => ?_⟩
  rcases List.mem_append.1 hf with hf | hf
  · exact bare_onFragments h f hf
  · exact hconditions f hf

theorem forall_mem_writeAll {motive : Fragment → Prop} {ps : List Predicate}
    (h : ∀ p ∈ ps, motive p.write) : ∀ f ∈ writeAll ps, motive f := by
  induction ps with
  | nil => exact fun f hf => nomatch hf
  | cons p ps ih =>
      obtain ⟨hp, hps⟩ := List.forall_mem_cons.1 h
      exact List.forall_mem_cons.2 ⟨hp, ih hps⟩

/-- A predicate brings no per cent sign into the text around its values. -/
theorem bare_write {p : Predicate} (h : p.Over Bare) : p.write.Bare := by
  induction h with
  | constant b => cases b <;> simp +decide [write]
  | test t h => exact bare_test h
  | conj ps _ ih =>
      rw [write, Fragment.bare_parenthesized]
      exact Fragment.bare_joined (by decide) (forall_mem_writeAll ih)
  | disj ps _ ih =>
      rw [write, Fragment.bare_parenthesized]
      exact Fragment.bare_joined (by decide) (forall_mem_writeAll ih)
  | neg p _ ih => simpa +decide [write] using ih
  | exist j p hj _ ih =>
      have hbehind : (writeBehind j [p.write]).Bare := bare_writeBehind hj (by simpa using ih)
      simpa +decide [write] using hbehind

theorem bare_writeConditions {ps : List Predicate} (h : ∀ p ∈ ps, p.Over Bare) :
    (writeConditions ps).Bare :=
  Fragment.bare_joined (by decide) (forall_mem_writeAll fun p hp => bare_write (h p hp))

end Predicate

/-! ## Statements that write -/

/-- The value beside a statement for a value of a column. -/
def Written.parameter : Written → Parameter
  | .plain v => .plain v
  | .json v => .json v
  | .geometry s => .plain (.text s)

theorem Written.parameters_write (w : Written) : w.write.parameters = [w.parameter] := by
  cases w <;> rfl

theorem Written.bare_write (w : Written) : w.write.Bare := by
  cases w with
  | geometry s => exact bare_geometrySql s
  | _ => simp [Written.write]

namespace Change

theorem bare_writeWhere {conditions : List Predicate} {key : String}
    (hconditions : ∀ p ∈ conditions, p.Over Bare) (hkey : Bare key) :
    (writeWhere conditions key).Bare := by
  have hcolumn := bare_column (c := ⟨baseAlias, key⟩) hkey
  simpa +decide [writeWhere, Predicate.bare_writeConditions hconditions] using hcolumn

/-- A statement that writes has no per cent sign around its values. -/
theorem bare_write {s : Change} (h : s.Over Bare) : s.write.Bare := by
  cases h with
  | @insert table values key htable hvalues hkey =>
      have hcolumns : Bare (String.intercalate ", " (values.map fun entry => identifier entry.1)) :=
        bare_intercalate (by decide) (List.forall_mem_map.2 fun entry hentry =>
          bare_identifier (hvalues entry hentry))
      have hwritten : (Fragment.joined ", " (values.map fun entry => entry.2.write)).Bare :=
        Fragment.bare_joined (by decide) (List.forall_mem_map.2 fun entry _ =>
          entry.2.bare_write)
      simp +decide [write, hcolumns, hwritten, bare_identifier htable, bare_identifier hkey]
  | @update table values conditions key htable hvalues hconditions hkey =>
      have hset : (Fragment.joined ", " (values.map fun entry =>
          Fragment.ofText (identifier entry.1 ++ " = ") ++ entry.2.write)).Bare := by
        refine Fragment.bare_joined (by decide) (List.forall_mem_map.2 fun entry hentry => ?_)
        simp +decide [bare_identifier (hvalues entry hentry), entry.2.bare_write]
      simp +decide [write, hset, bare_tableSql htable, bare_writeWhere hconditions hkey]
  | mark htable hmark hconditions hkey =>
      simp +decide [write, bare_tableSql htable,
        bare_writeWhere hconditions hkey]
  | delete htable hconditions hkey =>
      simp +decide [write, bare_tableSql htable, bare_writeWhere hconditions hkey]
  | link source targets htable hsource htarget =>
      simp +decide [write, bare_identifier htable, bare_identifier hsource, bare_identifier htarget]

end Change

end Warden.Sql
