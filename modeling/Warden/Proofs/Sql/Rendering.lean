import Warden.Database.Statement
import Warden.Proofs.Sql.Fragment

/-! # What is sent is what belongs together

A rendering **writes** a fragment (**`Rendering.Writes`**) if, whatever stands for values and
whatever was collected before, its text is that of the fragment with each value in its own place,
and what it adds to the values collected are those of the fragment, in order. A rendering that puts
texts together writes the fragments of its parts put together, so every renderer writes the fragment
that belongs to its tree, although some collect the values of a part before the text in front of it
is there (`Predicate.writes`, `Output.writes`, `Select.writes`, `Count.writes`, `Change.writes`).
What is sent is then the text and the values of the fragment (**`Statement.sent_eq`**). -/

namespace Warden

namespace Sql

/-! ## Values in place -/

namespace Fragment

variable {f g : Fragment} {fs : List Fragment} {separator s : String}
  {shown : Parameter → String}

/-- The text of a fragment with every value written in its own place. -/
def inPlace (shown : Parameter → String) (f : Fragment) : String :=
  String.join (f.map fun
    | .text s => s
    | .parameter p => shown p)

@[simp] theorem inPlace_nil : inPlace shown [] = "" := rfl

@[simp] theorem parameters_nil : parameters [] = [] := rfl

@[simp] theorem inPlace_append : inPlace shown (f ++ g) = inPlace shown f ++ inPlace shown g := by
  simp [inPlace]

@[simp] theorem inPlace_ofText : inPlace shown (ofText s) = s := by
  simp [inPlace, ofText]

@[simp] theorem inPlace_ofValue (v : Value) : inPlace shown (ofValue v) = shown (.plain v) := by
  simp [inPlace, ofValue]

@[simp] theorem inPlace_ofJson (v : Value) : inPlace shown (ofJson v) = shown (.json v) := by
  simp [inPlace, ofJson]

/-- With the placeholder for every value it is the text of the fragment. -/
theorem inPlace_placeholder : inPlace (fun _ => placeholder) f = f.sql := by
  rw [inPlace, sql]
  congr 2

theorem inPlace_joined :
    inPlace shown (joined separator fs) =
      String.intercalate separator (fs.map (inPlace shown)) := by
  induction fs with
  | nil => rfl
  | cons f fs ih =>
      cases fs with
      | nil => rw [joined_singleton, List.map_singleton, String.intercalate_singleton]
      | cons g fs =>
          rw [joined_cons_cons, inPlace_append, inPlace_append, inPlace_ofText, ih]
          exact String.intercalate_cons_cons.symm

end Fragment

/-! ## Renderings -/

namespace Rendering

open Fragment

variable {α β : Type} {shown : Parameter → String} {collected : List Parameter}

theorem bind_apply (r : Rendering α) (next : α → Rendering β) :
    (r >>= next) shown collected = next (r shown collected).1 shown (r shown collected).2 := rfl

theorem map_apply (r : Rendering α) (f : α → β) :
    (f <$> r) shown collected = (f (r shown collected).1, (r shown collected).2) := rfl

theorem pure_apply (a : α) : (pure a : Rendering α) shown collected = (a, collected) := rfl

theorem value_apply (p : Parameter) :
    value p shown collected = (shown p, collected ++ [p]) := rfl

/-- The rendering gives the text of the fragment with each value in its place, and adds the values
of the fragment to those collected before. -/
structure Writes (r : Rendering String) (f : Fragment) : Prop where
  /-- So it is whatever stands for values and whatever was collected before. -/
  run : ∀ shown collected, r shown collected = (f.inPlace shown, collected ++ f.parameters)

/-- The rendering gives the texts of the fragments, and adds the values of each in turn. -/
structure WritesAll (r : Rendering (List String)) (fs : List Fragment) : Prop where
  /-- So it is whatever stands for values and whatever was collected before. -/
  run : ∀ shown collected,
    r shown collected = (fs.map (Fragment.inPlace shown), collected ++ fs.flatMap parameters)

variable {r : Rendering String} {rs : Rendering (List String)} {f g : Fragment}
  {fs : List Fragment}

theorem writes_pure (s : String) : Writes (pure s) (ofText s) where
  run shown collected := by simp [pure_apply]

theorem writes_value (v : Value) : Writes (value (.plain v)) (ofValue v) where
  run shown collected := by simp [value_apply]

theorem writes_json (v : Value) : Writes (value (.json v)) (ofJson v) where
  run shown collected := by simp [value_apply]

theorem writesAll_nil : WritesAll (pure []) [] where
  run shown collected := by simp [pure_apply]

theorem WritesAll.cons (hr : Writes r f) (hrs : WritesAll rs fs) :
    WritesAll (do return (← r) :: (← rs)) (f :: fs) where
  run shown collected := by simp [bind_apply, map_apply, hr.run shown, hrs.run shown]

theorem writesAll_mapM {render : α → Rendering String} {write : α → Fragment}
    (h : ∀ a, Writes (render a) (write a)) (as : List α) :
    WritesAll (as.mapM render) (as.map write) := by
  induction as with
  | nil => exact writesAll_nil
  | cons a as ih =>
      rw [List.mapM_cons, List.map_cons]
      exact .cons (h a) ih

/-- What is sent when a fragment is written. -/
theorem Writes.sent_eq (h : Writes r f) : r.sent = ⟨f.sql, f.parameters⟩ := by
  rw [sent, h.run, inPlace_placeholder]
  rfl

theorem Writes.inPlace_eq (h : Writes r f) : r.inPlace shown = f.inPlace shown := by
  rw [Rendering.inPlace, h.run]

end Rendering

open Rendering Fragment

/-! ## Conditions -/

namespace Test

theorem writes_geometry (geometry : String) :
    Writes (renderGeometry geometry) (geometrySql geometry) where
  run shown collected := by
    simp [renderGeometry, geometrySql, map_apply, value_apply, String.append_assoc]

theorem writes_spatial (s : Spatial) (o : Operand) (geometry : String) :
    Writes (renderSpatial s o geometry) (spatialSql s o geometry) where
  run shown collected := by
    simp [renderSpatial, spatialSql, map_apply, (writes_geometry geometry).run,
      String.append_assoc]

/-- A test is rendered as it is written. -/
theorem writes (t : Test) : Writes t.render t.write := by
  cases t with
  | spatial s o geometry => exact writes_spatial s o geometry
  | notSpatial s o geometry =>
      constructor
      intro shown collected
      simp [render, write, map_apply, (writes_spatial s o geometry).run]
  | near o geometry distance =>
      constructor
      intro shown collected
      simp [render, write, bind_apply, map_apply, value_apply, (writes_geometry geometry).run,
        String.append_assoc]
  | _ =>
      constructor
      intro shown collected
      simp [render, write, bind_apply, map_apply, pure_apply, value_apply, String.append_assoc]

end Test

namespace Predicate

/-- The text behind a join is that of the fragment with the conditions of the join in front. -/
theorem inPlace_writeBehind (j : Join) (fs : List Fragment) (shown : Parameter → String) :
    (writeBehind j fs).inPlace shown = j.behindSql (fs.map (Fragment.inPlace shown)) := by
  simp only [writeBehind, Join.behindSql, Join.onFragments, Join.onSql, inPlace_append,
    inPlace_ofText, inPlace_joined]
  congr 1
  cases j.paranoid with
  | false => simp
  | true =>
      cases fs with
      | nil => simp [Test.alive, Test.write, Operand.sql, String.append_assoc]
      | cons f fs => simp [Test.alive, Test.write, Operand.sql, String.append_assoc]

/-- The conditions of a join have no values. -/
theorem parameters_writeBehind (j : Join) (fs : List Fragment) :
    (writeBehind j fs).parameters = fs.flatMap parameters := by
  cases hparanoid : j.paranoid <;>
    simp [writeBehind, Join.onFragments, hparanoid, parameters_joined, Test.alive, Test.write]

mutual

/-- A predicate is rendered as it is written. -/
theorem writes (p : Predicate) : Writes p.render p.write := by
  cases p with
  | constant b => exact writes_pure _
  | test t => exact t.writes
  | conj ps =>
      constructor
      intro shown collected
      simp [render, write, parenthesized, map_apply, (writesAll ps).run, inPlace_joined,
        parameters_joined, String.append_assoc]
  | disj ps =>
      constructor
      intro shown collected
      simp [render, write, parenthesized, map_apply, (writesAll ps).run, inPlace_joined,
        parameters_joined, String.append_assoc]
  | neg p =>
      have hopen : "NOT (" = "NOT " ++ "(" := rfl
      constructor
      intro shown collected
      simp [render, write, parenthesized, map_apply, (writes p).run, hopen, String.append_assoc,
        -String.reduceAppend]
  | exist j p =>
      constructor
      intro shown collected
      simp [render, write, map_apply, (writes p).run, inPlace_writeBehind,
        parameters_writeBehind, String.append_assoc]

/-- Predicates are rendered one after another. -/
theorem writesAll (ps : List Predicate) : WritesAll (renderAll ps) (writeAll ps) := by
  cases ps with
  | nil => exact writesAll_nil
  | cons p ps => exact .cons (writes p) (writesAll ps)

end

theorem writes_conditions (ps : List Predicate) :
    Writes (renderConditions ps) (writeConditions ps) where
  run shown collected := by
    simp [renderConditions, writeConditions, map_apply, (writesAll ps).run, inPlace_joined,
      parameters_joined]

end Predicate

/-! ## Statements that read -/

namespace Output

mutual

/-- An output is rendered as it is written. -/
theorem writes (o : Output) : Writes o.render o.write := by
  cases o with
  | column c => exact writes_pure _
  | group g => exact writes_pure _
  | aggregate function c => exact writes_pure _
  | related j members condition single =>
      constructor
      intro shown collected
      have hmembers := (writes_members members).run shown
      have hconditions := (Predicate.writesAll condition).run shown
      cases single <;>
        simp [render, write, bind_apply, map_apply, hmembers, hconditions, inPlace_joined,
          parameters_joined, Predicate.inPlace_writeBehind, Predicate.parameters_writeBehind,
          String.append_assoc, -String.reduceAppend]

/-- Named members are rendered one after another. -/
theorem writes_members (members : List (String × Output)) :
    WritesAll (renderMembers members) (writeMembers members) := by
  match members with
  | [] => exact writesAll_nil
  | (name, o) :: rest =>
      constructor
      intro shown collected
      simp [renderMembers, writeMembers, bind_apply, map_apply, (writes o).run,
        (writes_members rest).run]

end

theorem writes_labelled (label : String) (o : Output) :
    Writes (o.renderLabelled label) (o.writeLabelled label) where
  run shown collected := by
    simp [renderLabelled, writeLabelled, map_apply, o.writes.run, String.append_assoc]

end Output

theorem Sorting.writes (s : Sorting) : Writes s.render s.write := by
  induction s with
  | column c => exact writes_pure _
  | behind j s ih =>
      constructor
      intro shown collected
      simp [render, write, map_apply, ih.run, Predicate.inPlace_writeBehind,
        Predicate.parameters_writeBehind, String.append_assoc]

theorem Order.writes (o : Order) : Writes o.render o.write := by
  cases o with
  | rank columns term =>
      constructor
      intro shown collected
      simp [render, write, map_apply, value_apply, String.append_assoc]
  | row s direction =>
      constructor
      intro shown collected
      simp [render, write, map_apply, s.writes.run, String.append_assoc]
  | output label direction => exact writes_pure _

/-- The keys of an order behind their keyword, if there are any. -/
theorem writes_order (order : List Order) :
    Writes (renderOrder order)
      (if order.isEmpty then []
        else ofText " ORDER BY " ++ joined ", " (order.map Order.write)) where
  run shown collected := by
    have horder := (writesAll_mapM Order.writes order).run shown
    cases h : order.isEmpty <;>
      simp [renderOrder, h, map_apply, pure_apply, horder, inPlace_joined, parameters_joined]

/-- A number behind its keyword, if it is asked for. -/
theorem writes_bound (asked : Prop) [Decidable asked] (keyword : String) (n : Int) :
    Writes (renderBound asked keyword n)
      (if asked then ofText keyword ++ ofValue (.int n) else []) where
  run shown collected := by
    by_cases h : asked <;> simp [renderBound, h, map_apply, pure_apply, value_apply]

theorem inPlace_writeGroups (groups : List Group) (shown : Parameter → String) :
    (writeGroups groups).inPlace shown = groupsSql groups := by
  rw [writeGroups, groupsSql]
  split <;> simp

theorem parameters_writeGroups (groups : List Group) : (writeGroups groups).parameters = [] := by
  rw [writeGroups]
  split <;> rfl

theorem inPlace_writeBase (table : String) (conditions : List Predicate)
    (shown : Parameter → String) :
    (writeBase table conditions).inPlace shown =
      baseSql table ((Predicate.writeConditions conditions).inPlace shown) := by
  simp [writeBase, baseSql]

theorem parameters_writeBase (table : String) (conditions : List Predicate) :
    (writeBase table conditions).parameters =
      (Predicate.writeConditions conditions).parameters := by
  simp [writeBase]

/-- A statement that reads rows is rendered as it is written. -/
theorem Select.writes (s : Select) : Writes s.render s.write where
  run shown collected := by
    have houtputs := (writesAll_mapM (fun entry : String × Output =>
      Output.writes_labelled entry.1 entry.2) s.outputs).run shown
    have hconditions := (Predicate.writes_conditions s.conditions).run shown
    have horder := (writes_order s.order).run shown
    have hlimit := (writes_bound (0 ≤ s.limit) " LIMIT " s.limit).run shown
    have hoffset := (writes_bound (0 < s.offset) " OFFSET " s.offset).run shown
    simp only [render, bind_apply, pure_apply, houtputs, hconditions, horder, hlimit, hoffset]
    simp only [write, inPlace_append, parameters_append, inPlace_ofText, parameters_ofText,
      inPlace_joined, parameters_joined, inPlace_writeBase, parameters_writeBase,
      inPlace_writeGroups, parameters_writeGroups, String.append_assoc, List.append_assoc,
      List.nil_append]

/-- A statement that counts is rendered as it is written. -/
theorem Count.writes (s : Count) : Writes s.render s.write := by
  cases s with
  | one => exact writes_pure _
  | rows table conditions =>
      constructor
      intro shown collected
      simp [render, write, map_apply, (Predicate.writes_conditions conditions).run,
        inPlace_writeBase, parameters_writeBase]
  | groups table conditions keys =>
      constructor
      intro shown collected
      simp [render, write, map_apply, (Predicate.writes_conditions conditions).run,
        inPlace_writeBase, parameters_writeBase, inPlace_writeGroups, parameters_writeGroups,
        String.append_assoc]

/-! ## Statements that write -/

theorem Written.writes (w : Written) : Writes w.render w.write := by
  cases w with
  | plain v => exact writes_value v
  | json v => exact writes_json v
  | geometry s => exact Test.writes_geometry s

namespace Change

/-- The assignment of a value to its column. -/
theorem writes_assignment (entry : String × Written) :
    Writes (renderAssignment entry) (ofText (identifier entry.1 ++ " = ") ++ entry.2.write) where
  run shown collected := by simp [renderAssignment, map_apply, entry.2.writes.run]

theorem inPlace_writeWhere (conditions : List Predicate) (key : String)
    (shown : Parameter → String) :
    (writeWhere conditions key).inPlace shown =
      whereSql ((Predicate.writeConditions conditions).inPlace shown) key := by
  simp [writeWhere, whereSql, String.append_assoc]

theorem parameters_writeWhere (conditions : List Predicate) (key : String) :
    (writeWhere conditions key).parameters =
      (Predicate.writeConditions conditions).parameters := by
  simp [writeWhere]

/-- A statement that writes is rendered as it is written. -/
theorem writes (s : Change) : Writes s.render s.write := by
  constructor
  intro shown collected
  cases s with
  | insert table values key =>
      have hvalues := (writesAll_mapM (fun entry : String × Written => entry.2.writes) values).run
        shown
      simp [render, write, map_apply, hvalues, inPlace_joined, parameters_joined,
        String.append_assoc]
  | update table values conditions key =>
      have hvalues := (writesAll_mapM writes_assignment values).run shown
      have hconditions := (Predicate.writes_conditions conditions).run shown
      simp [render, write, bind_apply, map_apply, hvalues, hconditions, inPlace_joined,
        parameters_joined, inPlace_writeWhere, parameters_writeWhere, String.append_assoc]
  | mark table conditions key =>
      simp [render, write, map_apply, (Predicate.writes_conditions conditions).run,
        inPlace_writeWhere, parameters_writeWhere]
  | delete table conditions key =>
      simp [render, write, map_apply, (Predicate.writes_conditions conditions).run,
        inPlace_writeWhere, parameters_writeWhere]
  | link table sourceColumn targetColumn source targets =>
      simp [render, write, bind_apply, map_apply, value_apply, String.append_assoc]

end Change

end Sql

open Sql Fragment

/-! ## All statements -/

namespace Statement

theorem parameters_ofJson? (v : Value) : (ofJson? v).parameters = [json? v] := by
  rw [ofJson?, json?]
  split <;> rfl

theorem sql_ofJson? (v : Value) : (ofJson? v).sql = placeholder := by
  rw [ofJson?]
  split <;> simp

theorem sql_addPermission (p : Permission) :
    (write (.addPermission p)).sql = insertPermission := by
  have hvalues : String.intercalate ", " (List.replicate 10 placeholder) =
      "%s, %s, %s, %s, %s, %s, %s, %s, %s, %s" := by decide
  simp only [List.replicate_succ, List.replicate_zero] at hvalues
  simp only [write, sql_append, sql_joined, List.map_cons, List.map_nil, sql_ofText, sql_ofValue,
    sql_ofJson, sql_ofJson?, hvalues, String.append_assoc, String.reduceAppend]
  rfl

theorem sql_changePermission (p : Permission) :
    (write (.changePermission p)).sql = updatePermission := by
  simp only [write, sql_append, sql_ofText, sql_ofValue, sql_ofJson, sql_ofJson?, placeholder,
    String.reduceAppend]
  rfl

/-- **What is sent** for a statement is the text of its fragment and the values of the fragment, in
order. -/
theorem sent_eq (s : Statement) : s.sent = ⟨s.write.sql, s.write.parameters⟩ := by
  cases s with
  | select s => exact s.writes.sent_eq
  | count c => exact c.writes.sent_eq
  | change c => exact c.writes.sent_eq
  | addPermission p =>
      rw [sent, sql_addPermission]
      simp [write, parameters_joined, parameters_ofJson?]
  | changePermission p =>
      rw [sent, sql_changePermission]
      simp [write, parameters_ofJson?]
  | _ => simp [sent, write, placeholder, String.append_assoc]

end Statement

end Warden
