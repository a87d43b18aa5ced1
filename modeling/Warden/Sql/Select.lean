import Warden.Query.Plan
import Warden.Sql.Condition

/-! # Reading statements

**`Plan.select`** is the statement that reads the rows of a plan, **`Plan.count`** the one that
counts them. Both ask for the same conditions, so the count is that of all pages together.
-/

namespace Warden

namespace Sql

open Fragment

/-! ## Outputs -/

/-- What rows are grouped by. -/
inductive Group where
  /-- A column. -/
  | column (c : Column)
  /-- A part of the date in a column. -/
  | part (p : DatePart) (c : Column)

/-- The keyword of a part of a date. -/
def datePartKeyword : DatePart → String
  | .year => "YEAR"
  | .quarter => "QUARTER"
  | .month => "MONTH"
  | .week => "WEEK"
  | .day => "DAY"
  | .dow => "DOW"
  | .hour => "HOUR"
  | .minute => "MINUTE"

/-- A group key as it stands in a statement. -/
def Group.sql : Group → String
  | .column c => c.sql
  | .part p c => "EXTRACT(" ++ datePartKeyword p ++ " FROM " ++ c.sql ++ ")::integer"

/-- A function applied to what stands in the text. -/
def aggregateSql (function : AggregateFunction) (argument : String) : String :=
  match function with
  | .count => "count(" ++ argument ++ ")"
  | .countDistinct => "count(DISTINCT " ++ argument ++ ")"
  | .sum => "sum(" ++ argument ++ ")"
  | .avg => "avg(" ++ argument ++ ")"
  | .min => "min(" ++ argument ++ ")"
  | .max => "max(" ++ argument ++ ")"
  | .arrayAgg => "array_agg(" ++ argument ++ ")"

/-- A value that a statement returns. -/
inductive Output where
  /-- A column. -/
  | column (c : Column)
  /-- A group key. -/
  | group (g : Group)
  /-- An aggregate of a column or of all rows. -/
  | aggregate (function : AggregateFunction) (c : Option Column)
  /-- The rows behind a join as objects with named members: the first one alone or all in a list. -/
  | related (j : Join) (members : List (String × Output)) (condition : List Predicate)
      (single : Bool)

namespace Output

mutual

/-- The fragment of an output. -/
def write : Output → Fragment
  | column c => ofText c.sql
  | group g => ofText g.sql
  | aggregate function c =>
    ofText (aggregateSql function (match c with
      | some c => c.sql
      | none => "*"))
  | related j members condition single =>
    let object := ofText "json_build_object(" ++ joined ", " (writeMembers members) ++ ofText ")"
    let behind := Predicate.writeBehind j (Predicate.writeAll condition)
    if single then ofText "(SELECT " ++ object ++ behind ++ ofText " LIMIT 1)"
    else
      ofText "(SELECT coalesce(json_agg(" ++ object ++ ofText "), '[]'::json)" ++ behind ++
        ofText ")"

/-- The fragments of named members. -/
def writeMembers : List (String × Output) → List Fragment
  | [] => []
  | (name, o) :: rest => (ofText (literal name ++ ", ") ++ write o) :: writeMembers rest

end

/-- The fragment of an output under a label. -/
def writeLabelled (label : String) (o : Output) : Fragment :=
  o.write ++ ofText (" AS " ++ identifier label)

end Output

/-! ## Order -/

/-- What rows are sorted by. -/
inductive Sorting where
  /-- A column. -/
  | column (c : Column)
  /-- Something of the row behind a join. -/
  | behind (j : Join) (s : Sorting)

/-- The fragment of what rows are sorted by. -/
def Sorting.write : Sorting → Fragment
  | .column c => ofText c.sql
  | .behind j s =>
    ofText "(SELECT " ++ s.write ++ Predicate.writeBehind j [] ++ ofText " LIMIT 1)"

/-- One key of an order. -/
inductive Order where
  /-- How well the columns match the words of a text, best first. -/
  | rank (columns : List Column) (term : String)
  /-- A column of the row or of one behind it. -/
  | row (s : Sorting) (direction : SortDirection)
  /-- An output under its label. -/
  | output (label : String) (direction : SortDirection)

/-- The keyword of a direction. -/
def directionKeyword : SortDirection → String
  | .ascending => "ASC"
  | .descending => "DESC"

/-- The fragment of a key of an order. -/
def Order.write : Order → Fragment
  | .rank columns term =>
    ofText ("ts_rank(to_tsvector('simple', concat_ws(' ', " ++
        String.intercalate ", " (columns.map fun c => c.sql ++ "::text") ++
        ")), plainto_tsquery('simple', ") ++
      ofValue (.text term) ++ ofText ")) DESC"
  | .row s direction => s.write ++ ofText (" " ++ directionKeyword direction)
  | .output label direction => ofText (identifier label ++ " " ++ directionKeyword direction)

/-! ## Statements -/

/-- A statement that reads rows. -/
structure Select where
  /-- What is returned, under labels. -/
  outputs : List (String × Output)
  /-- The base table. -/
  table : String
  /-- What must hold of the base row. -/
  conditions : List Predicate
  /-- What the rows are grouped by. -/
  groups : List Group
  /-- In which order. -/
  order : List Order
  /-- How many rows; all for negative numbers. -/
  limit : Int
  /-- How many rows to pass over. -/
  offset : Int

/-- The base table and what must hold of its rows. -/
def writeBase (table : String) (conditions : List Predicate) : Fragment :=
  ofText (" FROM " ++ tableSql table baseAlias ++ " WHERE ") ++
    Predicate.writeConditions conditions

/-- The group keys after their keyword, if there are any. -/
def writeGroups (groups : List Group) : Fragment :=
  if groups.isEmpty then []
  else ofText (" GROUP BY " ++ String.intercalate ", " (groups.map Group.sql))

/-- The fragment of a statement that reads rows. -/
def Select.write (s : Select) : Fragment :=
  ofText "SELECT " ++ joined ", " (s.outputs.map fun (label, o) => o.writeLabelled label) ++
    writeBase s.table s.conditions ++ writeGroups s.groups ++
    (if s.order.isEmpty then []
      else ofText " ORDER BY " ++ joined ", " (s.order.map Order.write)) ++
    (if 0 ≤ s.limit then ofText " LIMIT " ++ ofValue (.int s.limit) else []) ++
    (if 0 < s.offset then ofText " OFFSET " ++ ofValue (.int s.offset) else [])

/-- A statement that counts. -/
inductive Count where
  /-- The count is one. -/
  | one
  /-- The rows. -/
  | rows (table : String) (conditions : List Predicate)
  /-- The groups of rows. -/
  | groups (table : String) (conditions : List Predicate) (keys : List Group)

/-- The fragment of a statement that counts. -/
def Count.write : Count → Fragment
  | .one => ofText "SELECT 1"
  | .rows table conditions => ofText "SELECT count(*)" ++ writeBase table conditions
  | .groups table conditions keys =>
    ofText "SELECT count(*) FROM (SELECT 1" ++ writeBase table conditions ++ writeGroups keys ++
      ofText ") AS grouped"

/-! ## Parts of a plan -/

/-- The output of a column of a numbered table under its own name. -/
def columnOutput (row : Alias) (name : String) : String × Output :=
  (name, .column ⟨row, name⟩)

mutual

/-- The outputs of a selection on the row of a table. -/
def selectionOutputs (k : Catalog) (c : Collection) (row : Alias) (conditions : Named Filter) :
    Selection → Build (List (String × Output))
  | .node columns relations => do
    return columns.map (columnOutput row) ++ (← relationOutputs k c row conditions relations)

/-- The outputs of selections behind relations. -/
def relationOutputs (k : Catalog) (c : Collection) (row : Alias) (conditions : Named Filter) :
    List (String × Selection) → Build (List (String × Output))
  | [] => return []
  | (name, s) :: rest => do
    let some r := c.relation? name | breakOff .missingKey
    let (j, target) ← joinRelation k c row name
    let members ← selectionOutputs k target j.tableAlias [] s
    let condition ← match Named.find? conditions name with
      | none => pure []
      | some f =>
        if f.isAll then pure []
        else (fun p => [p]) <$> f.predicate k target j.tableAlias
    return (name, .related j members condition r.isToOne) ::
      (← relationOutputs k c row conditions rest)

end

/-- The predicate of a search in the base row: false without fields to search in. -/
def searchPredicate (s : Search) : Predicate :=
  if s.fields.isEmpty then .constant false
  else
    .disj (s.fields.map fun f =>
      .test (.search ⟨baseAlias, f⟩ ("%" ++ patternLiteral s.term ++ "%")))

/-- The column that a sort path leads to. -/
def sorting (k : Catalog) : List String → Collection → Alias → Build Sorting
  | [], _, row => return .column ⟨row, ""⟩
  | [name], _, row => return .column ⟨row, name⟩
  | relation :: rest, c, row => do
    let (j, target) ← joinRelation k c row relation
    return .behind j (← sorting k rest target j.tableAlias)

/-- The order of sort keys. -/
def sortOrders (k : Catalog) (c : Collection) : List SortKey → Build (List Order)
  | [] => return []
  | key :: rest => do
    let s ← sorting k (Text.split '.' key.field) c baseAlias
    return .row s key.direction :: (← sortOrders k c rest)

/-- What a group key stands for. -/
def groupOf (key : GroupKey) : Group :=
  let column : Column := ⟨baseAlias, key.field⟩
  match key.part with
  | none => .column column
  | some p => .part p column

/-- What an aggregate stands for. -/
def aggregateOutput (a : Aggregate) : Output :=
  .aggregate a.function (if a.field = Aggregate.allRows then none else some ⟨baseAlias, a.field⟩)

end Sql

open Sql

namespace Plan

/-- What must hold of the base row. -/
def conditions (p : Plan) (k : Catalog) (c : Collection) : Build (List Predicate) := do
  let own ← p.filter.predicate k c baseAlias
  let related ← relationPredicates k c p.relConditions
  return own :: related ++ (p.search.map searchPredicate).toList ++
    if c.paranoid then [.test (.alive baseAlias)] else []

/-- The keys of the order: relevance first if it is asked for, the primary key if there are none. -/
def orders (p : Plan) (k : Catalog) (c : Collection) : Build (List Order) := do
  let ranks : List Order := match p.search with
    | some s =>
      if s.rank && !s.fields.isEmpty then
        [.rank (s.fields.map fun f => ⟨baseAlias, f⟩) s.term]
      else []
    | none => []
  let given := ranks ++ (← sortOrders k c p.sort)
  return if given.isEmpty then [.row (.column ⟨baseAlias, c.primaryKey⟩) .ascending] else given

/-- The outputs of a plan for aggregates. -/
def aggregateOutputs (p : Plan) : List (String × Output) :=
  p.groupBy.map (fun key => (key.label, .group (groupOf key))) ++
    p.aggregate.map fun (label, a) => (label, aggregateOutput a)

/-- The statement that reads the rows of a plan. -/
def select (p : Plan) (k : Catalog) : Outcome Select := do
  let c ← k.find p.collection
  let build : Build Select :=
    if p.isAggregate then do
      return {
        outputs := p.aggregateOutputs, table := c.tableName
        conditions := ← p.conditions k c
        groups := p.groupBy.map groupOf
        order := p.sort.map fun key => .output key.field key.direction
        limit := p.limit, offset := p.offset }
    else do
      let outputs ← selectionOutputs k c baseAlias p.relConditions p.selection
      let conditions ← p.conditions k c
      return {
        outputs, table := c.tableName, conditions, groups := []
        order := ← p.orders k c
        limit := p.limit, offset := p.offset }
  return (← build baseAlias).1

/-- The statement that counts the rows of a plan, or its groups. -/
def count (p : Plan) (k : Catalog) : Outcome Count := do
  let c ← k.find p.collection
  if p.isAggregate && p.groupBy.isEmpty then return .one
  let (conditions, _) ← p.conditions k c baseAlias
  return if p.groupBy.isEmpty then .rows c.tableName conditions
    else .groups c.tableName conditions (p.groupBy.map groupOf)

end Plan

end Warden
