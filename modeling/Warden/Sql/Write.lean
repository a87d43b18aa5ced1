import Warden.Sql.Condition

/-! # Writing statements

The statements that insert, update and delete rows and that link rows through a joining table.
Collections that keep deleted rows are never deleted from: their rows are marked.
-/

namespace Warden.Sql

open Fragment

/-! ## Values -/

/-- A value for a column. -/
inductive Written where
  /-- The value as it is. -/
  | plain (v : Value)
  /-- The value as JSON. -/
  | json (v : Value)
  /-- The geometry of a text. -/
  | geometry (s : String)

/-- The fragment of a value for a column. -/
def Written.write : Written → Fragment
  | .plain v => ofValue v
  | .json v => ofJson v
  | .geometry s => Test.geometrySql s

/-- The form in which a value is written to a column of a collection. -/
def written (c : Collection) (name : String) (v : Value) : Outcome Written :=
  match v, c.family? name with
  | .null, _ => .ok (.plain .null)
  | v, some .json => .ok (.json v)
  | v, some .geometry => do return .geometry (← geometryText v)
  | v, _ => .ok (.plain v)

/-- The forms in which values are written to the columns of a collection. -/
def writtenAll (c : Collection) : Record → Outcome (List (String × Written))
  | [] => .ok []
  | (name, v) :: rest => do
    let w ← written c name v
    return (name, w) :: (← writtenAll c rest)

/-! ## Statements -/

/-- A statement that writes. -/
inductive Change where
  /-- Adds a row and returns its key. -/
  | insert (table : String) (values : List (String × Written)) (key : String)
  /-- Changes rows and returns their keys. -/
  | update (table : String) (values : List (String × Written)) (conditions : List Predicate)
      (key : String)
  /-- Marks rows as deleted and returns their keys. -/
  | mark (table : String) (conditions : List Predicate) (key : String)
  /-- Deletes rows and returns their keys. -/
  | delete (table : String) (conditions : List Predicate) (key : String)
  /-- Links a row with others in a joining table; links that exist stay as they are. -/
  | link (table sourceColumn targetColumn : String) (source : Value) (targets : List Value)

namespace Change

/-- What must hold of the rows, and the key that is returned. -/
def writeWhere (conditions : List Predicate) (key : String) : Fragment :=
  ofText " WHERE " ++ Predicate.writeConditions conditions ++
    ofText (" RETURNING " ++ (Column.mk baseAlias key).sql)

/-- The fragment of a statement that writes. -/
def write : Change → Fragment
  | insert table values key =>
    ofText ("INSERT INTO " ++ identifier table ++ " (" ++
        String.intercalate ", " (values.map fun entry => identifier entry.1) ++ ") VALUES (") ++
      joined ", " (values.map fun entry => entry.2.write) ++
      ofText (") RETURNING " ++ identifier key)
  | update table values conditions key =>
    ofText ("UPDATE " ++ tableSql table baseAlias ++ " SET ") ++
      joined ", " (values.map fun entry =>
        ofText (identifier entry.1 ++ " = ") ++ entry.2.write) ++
      writeWhere conditions key
  | mark table conditions key =>
    ofText ("UPDATE " ++ tableSql table baseAlias ++ " SET " ++ identifier deletedMark ++
      " = now()") ++ writeWhere conditions key
  | delete table conditions key =>
    ofText ("DELETE FROM " ++ tableSql table baseAlias) ++ writeWhere conditions key
  | link table sourceColumn targetColumn source targets =>
    ofText ("INSERT INTO " ++ identifier table ++ " (" ++ identifier sourceColumn ++ ", " ++
        identifier targetColumn ++ ") SELECT ") ++
      ofValue source ++ ofText ", unnest(" ++ ofValue (.list targets) ++
      ofText ") ON CONFLICT DO NOTHING"

end Change

/-! ## Statements of a collection -/

/-- What must hold of rows that are written: the filter, the relation conditions, and that the row
is not marked as deleted. -/
def rowConditions (k : Catalog) (c : Collection) (f : Filter) (relConditions : Named Filter) :
    Outcome (List Predicate) := do
  let build : Build (List Predicate) := do
    let own ← f.predicate k c baseAlias
    return own :: (← relationPredicates k c relConditions)
  let (conditions, _) ← build baseAlias
  return conditions ++ if c.paranoid then [.test (.alive baseAlias)] else []

/-- The statement that adds a row. -/
def insertRow (k : Catalog) (collection : String) (values : Record) : Outcome Change := do
  let c ← k.find collection
  return .insert c.tableName (← writtenAll c values) c.primaryKey

/-- The statement that changes the rows of a filter. -/
def updateRows (k : Catalog) (collection : String) (f : Filter) (values : Record)
    (relConditions : Named Filter) : Outcome Change := do
  let c ← k.find collection
  let values ← writtenAll c values
  return .update c.tableName values (← rowConditions k c f relConditions) c.primaryKey

/-- The statement that deletes the rows of a filter. -/
def deleteRows (k : Catalog) (collection : String) (f : Filter) (relConditions : Named Filter) :
    Outcome Change := do
  let c ← k.find collection
  let conditions ← rowConditions k c f relConditions
  return if c.paranoid then .mark c.tableName conditions c.primaryKey
    else .delete c.tableName conditions c.primaryKey

/-- The statement that links a row with others through the joining table of a relation. -/
def linkRows (r : Relation) (source : Value) (targets : List Value) : Outcome Change := do
  let sourceColumn ← joinKey r r.sourceKey
  let targetColumn ← joinKey r r.targetKey
  return .link (← joinKey r r.through) sourceColumn targetColumn source targets

end Warden.Sql
