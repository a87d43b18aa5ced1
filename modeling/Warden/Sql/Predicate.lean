import Warden.Sql.Fragment
import Warden.Sql.Quoting

/-! # Predicates

The conditions of a statement as trees. Tables are numbered: the base table has the number 0, and
every table joined to it a number of its own.

* A **`Test`** compares a column with values.
* A **`Join`** leads from a row to the rows behind a relation. It demands that the keys agree and
  that the row it leads to is not marked as deleted.
* A **`Predicate`** combines tests; **`Predicate.exist`** asks for a row behind a join.

`write` gives the fragment of each.
-/

namespace Warden.Sql

/-! ## Columns -/

/-- The number of a table in a statement. -/
abbrev Alias := Nat

/-- The table that a statement is about. -/
def baseAlias : Alias := 0

/-- The name of a table's number. -/
def aliasName (a : Alias) : String :=
  "t" ++ toString a

/-- A column of a numbered table. -/
structure Column where
  /-- The table. -/
  tableAlias : Alias
  /-- The name. -/
  name : String
deriving DecidableEq

/-- A column as it stands in a statement. -/
def Column.sql (c : Column) : String :=
  aliasName c.tableAlias ++ "." ++ identifier c.name

/-- A named table with its number. -/
def tableSql (table : String) (a : Alias) : String :=
  identifier table ++ " AS " ++ aliasName a

/-- What is compared: a column, cast to another type or not. -/
structure Operand where
  /-- The column. -/
  column : Column
  /-- The type. -/
  cast : Option String
deriving DecidableEq

/-- An operand as it stands in a statement. -/
def Operand.sql (o : Operand) : String :=
  match o.cast with
  | none => o.column.sql
  | some cast => "(" ++ o.column.sql ++ ")::" ++ cast

/-! ## Tests -/

/-- The comparisons with one value. -/
inductive Comparator where
  | equal
  | distinct
  | greater
  | greaterOrEqual
  | less
  | lessOrEqual
  | like
  | notLike
  | ilike
  | notIlike
  | regex
  | contains
  | overlaps
  | contained
  | hasKey
deriving DecidableEq

/-- A comparison as it stands in a statement. -/
def Comparator.sql : Comparator → String
  | .equal => "="
  | .distinct => "IS DISTINCT FROM"
  | .greater => ">"
  | .greaterOrEqual => ">="
  | .less => "<"
  | .lessOrEqual => "<="
  | .like => "LIKE"
  | .notLike => "NOT LIKE"
  | .ilike => "ILIKE"
  | .notIlike => "NOT ILIKE"
  | .regex => "~"
  | .contains => "@>"
  | .overlaps => "&&"
  | .contained => "<@"
  | .hasKey => "?"

/-- The kinds of values that can be empty. -/
inductive Container where
  | text
  | array
  | json
deriving DecidableEq

/-- The relations between geometries. -/
inductive Spatial where
  | within
  | contains
  | intersects
  | overlaps
deriving DecidableEq

/-- The function for a relation between geometries. -/
def Spatial.function : Spatial → String
  | .within => "ST_Within"
  | .contains => "ST_Contains"
  | .intersects => "ST_Intersects"
  | .overlaps => "ST_Overlaps"

/-- A comparison of one operand. -/
inductive Test where
  /-- The operand compares to the value. -/
  | compare (o : Operand) (c : Comparator) (v : Value)
  /-- The operand is absent. -/
  | isNull (o : Operand)
  /-- The operand is present. -/
  | isNotNull (o : Operand)
  /-- The operand is one of the values. -/
  | anyOf (o : Operand) (vs : List Value)
  /-- The operand is absent or none of the values. -/
  | noneOf (o : Operand) (vs : List Value)
  /-- The operand lies between the values. -/
  | between (o : Operand) (low high : Value)
  /-- The operand does not lie between the values. -/
  | notBetween (o : Operand) (low high : Value)
  /-- The operand is absent or empty. -/
  | empty (kind : Container) (o : Operand)
  /-- The operand is neither absent nor empty. -/
  | notEmpty (kind : Container) (o : Operand)
  /-- The operand has as many items. -/
  | length (o : Operand) (v : Value)
  /-- The JSON operand contains the value. -/
  | jsonContains (o : Operand) (v : Value)
  /-- The JSON operand has one of the keys. -/
  | anyKey (o : Operand) (keys : List Value)
  /-- The JSON operand has all keys. -/
  | allKeys (o : Operand) (keys : List Value)
  /-- The JSON operand has something at the path. -/
  | jsonPath (o : Operand) (path : Value)
  /-- The operand relates to the geometry. -/
  | spatial (s : Spatial) (o : Operand) (geometry : String)
  /-- The operand does not relate to the geometry. -/
  | notSpatial (s : Spatial) (o : Operand) (geometry : String)
  /-- The operand is no further from the geometry than the distance. -/
  | near (o : Operand) (geometry : String) (distance : Value)
  /-- The text of the column has the pattern. -/
  | search (c : Column) (pattern : String)

namespace Test

open Fragment

/-- A geometry read from its text. -/
def geometrySql (geometry : String) : Fragment :=
  ofText "ST_GeomFromGeoJSON(" ++ ofValue (.text geometry) ++ ofText ")"

/-- The test for an absent or empty value. -/
def emptySql (kind : Container) (o : Operand) : String :=
  let column := o.sql
  match kind with
  | .array => "(" ++ column ++ " IS NULL OR cardinality(" ++ column ++ ") = 0)"
  | .json =>
    "(" ++ column ++ " IS NULL OR " ++ column ++ "::jsonb IN ('\x7b\x7d'::jsonb, '[]'::jsonb))"
  | .text => "(" ++ column ++ " IS NULL OR " ++ column ++ "::text = '')"

/-- The relation of an operand to a geometry. -/
def spatialSql (s : Spatial) (o : Operand) (geometry : String) : Fragment :=
  ofText (s.function ++ "(" ++ o.sql ++ ", ") ++ geometrySql geometry ++ ofText ")"

/-- The fragment of a test. -/
def write : Test → Fragment
  | compare o c v => ofText (o.sql ++ " " ++ c.sql ++ " ") ++ ofValue v
  | isNull o => ofText (o.sql ++ " IS NULL")
  | isNotNull o => ofText (o.sql ++ " IS NOT NULL")
  | anyOf o vs => ofText (o.sql ++ " = ANY(") ++ ofValue (.list vs) ++ ofText ")"
  | noneOf o vs =>
    ofText ("(" ++ o.sql ++ " IS NULL OR " ++ o.sql ++ " <> ALL(") ++ ofValue (.list vs) ++
      ofText "))"
  | between o low high =>
    ofText (o.sql ++ " BETWEEN ") ++ ofValue low ++ ofText " AND " ++ ofValue high
  | notBetween o low high =>
    ofText (o.sql ++ " NOT BETWEEN ") ++ ofValue low ++ ofText " AND " ++ ofValue high
  | empty kind o => ofText (emptySql kind o)
  | notEmpty kind o => ofText ("NOT " ++ emptySql kind o)
  | length o v => ofText ("coalesce(cardinality(" ++ o.sql ++ "), 0) = ") ++ ofValue v
  | jsonContains o v => ofText (o.sql ++ " @> ") ++ ofJson v ++ ofText "::jsonb"
  | anyKey o keys => ofText (o.sql ++ " ?| ") ++ ofValue (.list keys) ++ ofText "::text[]"
  | allKeys o keys => ofText (o.sql ++ " ?& ") ++ ofValue (.list keys) ++ ofText "::text[]"
  | jsonPath o path =>
    ofText ("jsonb_path_exists(" ++ o.sql ++ ", ") ++ ofValue path ++ ofText "::jsonpath)"
  | spatial s o geometry => spatialSql s o geometry
  | notSpatial s o geometry => ofText "NOT " ++ spatialSql s o geometry
  | near o geometry distance =>
    ofText ("ST_DWithin(" ++ o.sql ++ "::geography, ") ++ geometrySql geometry ++
      ofText "::geography, " ++ ofValue distance ++ ofText ")"
  | search c pattern => ofText (c.sql ++ "::text ILIKE ") ++ ofValue (.text pattern)

end Test

/-! ## Joins -/

/-- The column in which collections that keep deleted rows mark them. -/
def deletedMark : String := "deleted_at"

/-- The row of a table is not marked as deleted. -/
def Test.alive (a : Alias) : Test :=
  .isNull ⟨⟨a, deletedMark⟩, none⟩

/-- Two columns hold the same key. -/
structure Correlation where
  /-- One column. -/
  left : Column
  /-- The other column. -/
  right : Column
deriving DecidableEq

/-- A correlation as it stands in a statement. -/
def Correlation.sql (c : Correlation) : String :=
  c.left.sql ++ " = " ++ c.right.sql

/-- A joining table. -/
structure Junction where
  /-- The name of the table. -/
  table : String
  /-- Its number. -/
  tableAlias : Alias
  /-- How its rows belong to those of the target. -/
  on : Correlation

/-- The way from a row to the rows behind a relation. -/
structure Join where
  /-- The name of the table it leads to. -/
  table : String
  /-- The number of that table. -/
  tableAlias : Alias
  /-- The table in between. -/
  junction : Option Junction
  /-- How the rows belong to the one it starts from. -/
  on : Correlation
  /-- Rows of the table it leads to are marked when they are deleted. -/
  paranoid : Bool

namespace Join

/-- The tables of a join. -/
def fromSql (j : Join) : String :=
  let table := tableSql j.table j.tableAlias
  match j.junction with
  | none => table
  | some u => tableSql u.table u.tableAlias ++ " JOIN " ++ table ++ " ON " ++ u.on.sql

/-- What a join demands of the rows. -/
def onFragments (j : Join) : List Fragment :=
  .ofText j.on.sql :: if j.paranoid then [(Test.alive j.tableAlias).write] else []

end Join

/-! ## Predicates -/

/-- A condition of a statement. -/
inductive Predicate where
  /-- True or false. -/
  | constant (b : Bool)
  /-- A test. -/
  | test (t : Test)
  /-- All must hold. -/
  | conj (ps : List Predicate)
  /-- At least one must hold. -/
  | disj (ps : List Predicate)
  /-- It must not hold. -/
  | neg (p : Predicate)
  /-- There is a row behind the join of which the predicate holds. -/
  | exist (j : Join) (p : Predicate)

namespace Predicate

open Fragment

/-- The body of a search for rows behind a join. -/
def writeBehind (j : Join) (conditions : List Fragment) : Fragment :=
  ofText (" FROM " ++ j.fromSql ++ " WHERE ") ++ joined " AND " (j.onFragments ++ conditions)

mutual

/-- The fragment of a predicate. -/
def write : Predicate → Fragment
  | constant b => ofText (if b then "TRUE" else "FALSE")
  | test t => t.write
  | conj ps => parenthesized (joined " AND " (writeAll ps))
  | disj ps => parenthesized (joined " OR " (writeAll ps))
  | neg p => ofText "NOT " ++ parenthesized (write p)
  | exist j p => ofText "EXISTS (SELECT 1" ++ writeBehind j [write p] ++ ofText ")"

/-- The fragments of several predicates. -/
def writeAll : List Predicate → List Fragment
  | [] => []
  | p :: ps => write p :: writeAll ps

end

/-- The fragment of predicates that must all hold. -/
def writeConditions (ps : List Predicate) : Fragment :=
  joined " AND " (writeAll ps)

end Predicate

end Warden.Sql
