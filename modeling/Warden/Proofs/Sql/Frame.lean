import Warden.Proofs.Sql.Fragment
import Warden.Proofs.Sql.Names

/-! # The texts around operands

A test names its operand once, or twice where it asks for its absence as well. All else in its text
is fixed by the kind of the test: **`Test.frame`** is what is written before the operand and what
follows it each time, and **`Test.sql_write`** puts the text together. So what is known of the
operand's text is brought to that of the test by looking at the frame alone. -/

namespace Warden.Sql

/-! ## Other columns -/

/-- The operand with another column. -/
def Operand.mapColumn (f : Column → Column) (o : Operand) : Operand :=
  { o with column := f o.column }

/-- The test with another column. -/
def Test.mapColumn (f : Column → Column) : Test → Test
  | compare o c v => compare (o.mapColumn f) c v
  | isNull o => isNull (o.mapColumn f)
  | isNotNull o => isNotNull (o.mapColumn f)
  | anyOf o vs => anyOf (o.mapColumn f) vs
  | noneOf o vs => noneOf (o.mapColumn f) vs
  | between o low high => between (o.mapColumn f) low high
  | notBetween o low high => notBetween (o.mapColumn f) low high
  | empty kind o => empty kind (o.mapColumn f)
  | notEmpty kind o => notEmpty kind (o.mapColumn f)
  | length o v => length (o.mapColumn f) v
  | jsonContains o v => jsonContains (o.mapColumn f) v
  | anyKey o keys => anyKey (o.mapColumn f) keys
  | allKeys o keys => allKeys (o.mapColumn f) keys
  | jsonPath o path => jsonPath (o.mapColumn f) path
  | spatial s o geometry => spatial s (o.mapColumn f) geometry
  | notSpatial s o geometry => notSpatial s (o.mapColumn f) geometry
  | near o geometry distance => near (o.mapColumn f) geometry distance
  | search c pattern => search (f c) pattern

/-- The correlation with other columns. -/
def Correlation.mapColumn (f : Column → Column) (c : Correlation) : Correlation :=
  ⟨f c.left, f c.right⟩

/-! ## Frames -/

namespace Test

/-- The text before and the texts behind the operand of a test for emptiness. -/
def emptyFrame : Container → String × List String
  | .array => ("(", [" IS NULL OR cardinality(", ") = 0)"])
  | .json => ("(", [" IS NULL OR ", "::jsonb IN ('\x7b\x7d'::jsonb, '[]'::jsonb))"])
  | .text => ("(", [" IS NULL OR ", "::text = '')"])

/-- The text before the operand of a test, and the text that follows it each time. -/
def frame : Test → String × List String
  | compare _ c _ => ("", [" " ++ c.sql ++ " %s"])
  | isNull _ => ("", [" IS NULL"])
  | isNotNull _ => ("", [" IS NOT NULL"])
  | anyOf _ _ => ("", [" = ANY(%s)"])
  | noneOf _ _ => ("(", [" IS NULL OR ", " <> ALL(%s))"])
  | between _ _ _ => ("", [" BETWEEN %s AND %s"])
  | notBetween _ _ _ => ("", [" NOT BETWEEN %s AND %s"])
  | empty kind _ => emptyFrame kind
  | notEmpty kind _ => ("NOT " ++ (emptyFrame kind).1, (emptyFrame kind).2)
  | length _ _ => ("coalesce(cardinality(", ["), 0) = %s"])
  | jsonContains _ _ => ("", [" @> %s::jsonb"])
  | anyKey _ _ => ("", [" ?| %s::text[]"])
  | allKeys _ _ => ("", [" ?& %s::text[]"])
  | jsonPath _ _ => ("jsonb_path_exists(", [", %s::jsonpath)"])
  | spatial s _ _ => (s.function ++ "(", [", ST_GeomFromGeoJSON(%s))"])
  | notSpatial s _ _ => ("NOT " ++ s.function ++ "(", [", ST_GeomFromGeoJSON(%s))"])
  | near _ _ _ => ("ST_DWithin(", ["::geography, ST_GeomFromGeoJSON(%s)::geography, %s)"])
  | search _ _ => ("", ["::text ILIKE %s"])

/-- A text in a frame. -/
def framed (frame : String × List String) (s : String) : String :=
  frame.1 ++ String.join (frame.2.map (s ++ ·))

theorem emptySql_eq_framed (kind : Container) (o : Operand) :
    emptySql kind o = framed (emptyFrame kind) o.sql := by
  cases kind <;> simp [emptySql, framed, emptyFrame, String.append_assoc]

/-- **The text of a test** is that of its operand in the frame. -/
theorem sql_write (t : Test) : t.write.sql = framed t.frame t.operand.sql := by
  cases t with
  | empty kind o => simpa [write, frame] using emptySql_eq_framed kind o
  | notEmpty kind o =>
      have hempty := emptySql_eq_framed kind o
      simp only [framed] at hempty
      simp [write, frame, framed, hempty, String.append_assoc]
  | _ =>
      simp [write, frame, framed, geometrySql, spatialSql, Operand.sql, Fragment.placeholder,
        String.append_assoc]

/-- Most tests are written behind their operands. -/
theorem sql_behind {t : Test} {after : String} (h : t.frame = ("", [after])) :
    t.write.sql = t.operand.sql ++ after := by
  simp [sql_write, h, framed]

/-- Others are written around them. -/
theorem sql_around {t : Test} {before after : String} (h : t.frame = (before, [after])) :
    t.write.sql = before ++ (t.operand.sql ++ after) := by
  simp [sql_write, h, framed]

@[simp] theorem frame_mapColumn (f : Column → Column) (t : Test) :
    (t.mapColumn f).frame = t.frame := by
  cases t <;> rfl

@[simp] theorem operand_mapColumn (f : Column → Column) (t : Test) :
    (t.mapColumn f).operand = t.operand.mapColumn f := by
  cases t <;> rfl

end Test

end Warden.Sql
