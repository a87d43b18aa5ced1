import Warden.Sql.Select
import Warden.Sql.Write

/-! # What is sent

The database gets a text with placeholders and, beside it, a list of values. A **`Rendering`**
writes the text and collects the values on its way: **`Rendering.value`** appends a value to those
collected so far and gives what stands for it in the text. Parts of a statement are often generated
in another order than they stand in: what must hold of the rows behind a relation is rendered before
the text that leads to them, and the text is put together afterwards.

What stands for a value is left open. **`Rendering.sent`** takes the placeholder for each of them,
**`Rendering.inPlace`** some text of its own for each.
-/

namespace Warden.Sql

/-- A construction that collects values. It reads what stands for a value in the text. -/
abbrev Rendering := ReaderT (Parameter → String) (StateM (List Parameter))

/-- A text with placeholders and the values beside it. -/
structure Sent where
  /-- The text. -/
  text : String
  /-- The values. -/
  parameters : List Parameter

namespace Rendering

/-- Collects a value and gives what stands for it. -/
def value (p : Parameter) : Rendering String := do
  modify (· ++ [p])
  return (← read) p

/-- What is sent: every value has the placeholder in the text. -/
def sent (r : Rendering String) : Sent :=
  let (text, parameters) := r (fun _ => Fragment.placeholder) []
  { text, parameters }

/-- The text in which every value is written where it is generated. -/
def inPlace (r : Rendering String) (shown : Parameter → String) : String :=
  (r shown []).1

end Rendering

open Rendering

/-! ## Conditions -/

/-- Renders a geometry that is read from its text. -/
def Test.renderGeometry (geometry : String) : Rendering String :=
  return "ST_GeomFromGeoJSON(" ++ (← value (.plain (.text geometry))) ++ ")"

/-- Renders the relation of an operand to a geometry. -/
def Test.renderSpatial (s : Spatial) (o : Operand) (geometry : String) : Rendering String :=
  return s.function ++ "(" ++ o.sql ++ ", " ++ (← renderGeometry geometry) ++ ")"

/-- Renders a test. -/
def Test.render : Test → Rendering String
  | compare o c v => return o.sql ++ " " ++ c.sql ++ " " ++ (← value (.plain v))
  | isNull o => return o.sql ++ " IS NULL"
  | isNotNull o => return o.sql ++ " IS NOT NULL"
  | anyOf o vs => return o.sql ++ " = ANY(" ++ (← value (.plain (.list vs))) ++ ")"
  | noneOf o vs =>
    return "(" ++ o.sql ++ " IS NULL OR " ++ o.sql ++ " <> ALL(" ++
      (← value (.plain (.list vs))) ++ "))"
  | between o low high =>
    return o.sql ++ " BETWEEN " ++ (← value (.plain low)) ++ " AND " ++ (← value (.plain high))
  | notBetween o low high =>
    return o.sql ++ " NOT BETWEEN " ++ (← value (.plain low)) ++ " AND " ++
      (← value (.plain high))
  | empty kind o => return emptySql kind o
  | notEmpty kind o => return "NOT " ++ emptySql kind o
  | length o v =>
    return "coalesce(cardinality(" ++ o.sql ++ "), 0) = " ++ (← value (.plain v))
  | jsonContains o v => return o.sql ++ " @> " ++ (← value (.json v)) ++ "::jsonb"
  | anyKey o keys => return o.sql ++ " ?| " ++ (← value (.plain (.list keys))) ++ "::text[]"
  | allKeys o keys => return o.sql ++ " ?& " ++ (← value (.plain (.list keys))) ++ "::text[]"
  | jsonPath o path =>
    return "jsonb_path_exists(" ++ o.sql ++ ", " ++ (← value (.plain path)) ++ "::jsonpath)"
  | spatial s o geometry => renderSpatial s o geometry
  | notSpatial s o geometry => return "NOT " ++ (← renderSpatial s o geometry)
  | near o geometry distance => do
    let geometry ← renderGeometry geometry
    let distance ← value (.plain distance)
    return "ST_DWithin(" ++ o.sql ++ "::geography, " ++ geometry ++ "::geography, " ++ distance ++
      ")"
  | search c pattern => return c.sql ++ "::text ILIKE " ++ (← value (.plain (.text pattern)))

/-- What a join demands of the rows, as it stands in a statement. -/
def Join.onSql (j : Join) : String :=
  if j.paranoid then j.on.sql ++ " AND " ++ (Column.mk j.tableAlias deletedMark).sql ++ " IS NULL"
  else j.on.sql

/-- The body of a search for rows behind a join, around conditions that are rendered already. -/
def Join.behindSql (j : Join) (conditions : List String) : String :=
  " FROM " ++ j.fromSql ++ " WHERE " ++ String.intercalate " AND " (j.onSql :: conditions)

namespace Predicate

mutual

/-- Renders a predicate. -/
def render : Predicate → Rendering String
  | constant b => return if b then "TRUE" else "FALSE"
  | test t => t.render
  | conj ps => return "(" ++ String.intercalate " AND " (← renderAll ps) ++ ")"
  | disj ps => return "(" ++ String.intercalate " OR " (← renderAll ps) ++ ")"
  | neg p => return "NOT (" ++ (← render p) ++ ")"
  | exist j p => do
    let inner ← render p
    return "EXISTS (SELECT 1" ++ j.behindSql [inner] ++ ")"

/-- Renders predicates one after another. -/
def renderAll : List Predicate → Rendering (List String)
  | [] => return []
  | p :: ps => return (← render p) :: (← renderAll ps)

end

/-- Renders predicates that must all hold. -/
def renderConditions (ps : List Predicate) : Rendering String :=
  return String.intercalate " AND " (← renderAll ps)

end Predicate

/-! ## Statements that read -/

namespace Output

mutual

/-- Renders an output. What is asked of the rows behind a join comes after their members, and both
before the text around them. -/
def render : Output → Rendering String
  | column c => return c.sql
  | group g => return g.sql
  | aggregate function c =>
    return aggregateSql function (match c with
      | some c => c.sql
      | none => "*")
  | related j members condition single => do
    let pairs ← renderMembers members
    let conditions ← Predicate.renderAll condition
    let object := "json_build_object(" ++ String.intercalate ", " pairs ++ ")"
    let behind := j.behindSql conditions
    return if single then "(SELECT " ++ object ++ behind ++ " LIMIT 1)"
      else "(SELECT coalesce(json_agg(" ++ object ++ "), '[]'::json)" ++ behind ++ ")"

/-- Renders named members one after another. -/
def renderMembers : List (String × Output) → Rendering (List String)
  | [] => return []
  | (name, o) :: rest =>
    return (literal name ++ ", " ++ (← render o)) :: (← renderMembers rest)

end

/-- Renders an output under a label. -/
def renderLabelled (label : String) (o : Output) : Rendering String :=
  return (← o.render) ++ " AS " ++ identifier label

end Output

/-- Renders what rows are sorted by. -/
def Sorting.render : Sorting → Rendering String
  | .column c => return c.sql
  | .behind j s => do
    let inner ← s.render
    return "(SELECT " ++ inner ++ j.behindSql [] ++ " LIMIT 1)"

/-- Renders a key of an order. -/
def Order.render : Order → Rendering String
  | .rank columns term => do
    let document := String.intercalate ", " (columns.map fun c => c.sql ++ "::text")
    return "ts_rank(to_tsvector('simple', concat_ws(' ', " ++ document ++
      ")), plainto_tsquery('simple', " ++ (← value (.plain (.text term))) ++ ")) DESC"
  | .row s direction => return (← s.render) ++ " " ++ directionKeyword direction
  | .output label direction => return identifier label ++ " " ++ directionKeyword direction

/-- Renders the keys of an order after their keyword, if there are any. -/
def renderOrder (order : List Order) : Rendering String := do
  if order.isEmpty then return ""
  return " ORDER BY " ++ String.intercalate ", " (← order.mapM Order.render)

/-- The group keys after their keyword, if there are any. -/
def groupsSql (groups : List Group) : String :=
  if groups.isEmpty then "" else " GROUP BY " ++ String.intercalate ", " (groups.map Group.sql)

/-- The base table and what must hold of its rows, rendered already. -/
def baseSql (table conditions : String) : String :=
  " FROM " ++ tableSql table baseAlias ++ " WHERE " ++ conditions

/-- Renders a keyword with a number behind it if it is asked for, and nothing otherwise. -/
def renderBound (asked : Bool) (keyword : String) (n : Int) : Rendering String :=
  if asked then return keyword ++ (← value (.plain (.int n))) else return ""

/-- Renders a statement that reads rows: what it returns, what must hold, the order, the page. -/
def Select.render (s : Select) : Rendering String := do
  let items ← s.outputs.mapM fun (label, o) => o.renderLabelled label
  let conditions ← Predicate.renderConditions s.conditions
  let order ← renderOrder s.order
  let limit ← renderBound (0 ≤ s.limit) " LIMIT " s.limit
  let offset ← renderBound (0 < s.offset) " OFFSET " s.offset
  return "SELECT " ++ String.intercalate ", " items ++ baseSql s.table conditions ++
    groupsSql s.groups ++ order ++ limit ++ offset

/-- Renders a statement that counts. -/
def Count.render : Count → Rendering String
  | .one => return "SELECT 1"
  | .rows table conditions => do
    let conditions ← Predicate.renderConditions conditions
    return "SELECT count(*)" ++ baseSql table conditions
  | .groups table conditions keys => do
    let conditions ← Predicate.renderConditions conditions
    return "SELECT count(*) FROM (SELECT 1" ++ baseSql table conditions ++ groupsSql keys ++
      ") AS grouped"

/-! ## Statements that write -/

/-- Renders a value for a column. -/
def Written.render : Written → Rendering String
  | .plain v => value (.plain v)
  | .json v => value (.json v)
  | .geometry s => Test.renderGeometry s

/-- Renders the assignment of a value to its column. -/
def renderAssignment (entry : String × Written) : Rendering String :=
  return identifier entry.1 ++ " = " ++ (← entry.2.render)

/-- What must hold of the rows that are written, rendered already, and the key that is returned. -/
def whereSql (conditions key : String) : String :=
  " WHERE " ++ conditions ++ " RETURNING " ++ (Column.mk baseAlias key).sql

/-- Renders a statement that writes. Columns get their values before the conditions are rendered. -/
def Change.render : Change → Rendering String
  | insert table values key => do
    let columns := String.intercalate ", " (values.map fun entry => identifier entry.1)
    let written ← values.mapM fun entry => entry.2.render
    return "INSERT INTO " ++ identifier table ++ " (" ++ columns ++ ") VALUES (" ++
      String.intercalate ", " written ++ ") RETURNING " ++ identifier key
  | update table values conditions key => do
    let assignments ← values.mapM renderAssignment
    let conditions ← Predicate.renderConditions conditions
    return "UPDATE " ++ tableSql table baseAlias ++ " SET " ++
      String.intercalate ", " assignments ++ whereSql conditions key
  | mark table conditions key => do
    let conditions ← Predicate.renderConditions conditions
    return "UPDATE " ++ tableSql table baseAlias ++ " SET " ++ identifier deletedMark ++
      " = now()" ++ whereSql conditions key
  | delete table conditions key => do
    let conditions ← Predicate.renderConditions conditions
    return "DELETE FROM " ++ tableSql table baseAlias ++ whereSql conditions key
  | link table sourceColumn targetColumn source targets =>
    return "INSERT INTO " ++ identifier table ++ " (" ++ identifier sourceColumn ++ ", " ++
      identifier targetColumn ++ ") SELECT " ++ (← value (.plain source)) ++ ", unnest(" ++
      (← value (.plain (.list targets))) ++ ") ON CONFLICT DO NOTHING"

end Warden.Sql
