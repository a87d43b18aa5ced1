import Warden.Filter.Parser

/-! # Requests

A **`Request`** is what a caller asks of one collection: a filter, fields, an order, a page, a
search term, aggregates and group keys. Its parts are read from values:

* **`SortKey.readAll`** reads an order in any of its written forms,
* **`Aggregate.read`** an aggregate, **`GroupKey.read`** a group key.
-/

namespace Warden

/-! ## Order -/

/-- The direction of an order. -/
inductive SortDirection where
  | ascending
  | descending
deriving DecidableEq

/-- The name of a direction. -/
def SortDirection.name : SortDirection → String
  | .ascending => "asc"
  | .descending => "desc"

/-- Reads a direction; blanks around it and case do not count. -/
def SortDirection.read (s : String) : Outcome SortDirection :=
  let word := Text.lower (Text.trim s)
  if word = "asc" then .ok .ascending
  else if word = "desc" then .ok .descending
  else refuse (.invalidSortDirection s)

/-- A field to sort by. -/
structure SortKey where
  /-- The path of the field. -/
  field : String
  /-- The direction. -/
  direction : SortDirection
deriving DecidableEq

namespace SortKey

/-- Reads a name with an optional minus sign before it or a direction after a colon. -/
def readText (s : String) : Outcome SortKey :=
  let text := Text.trim s
  match text.toList with
  | '-' :: rest => .ok ⟨String.ofList rest, .descending⟩
  | _ =>
    match Text.cut? ':' text with
    | some (name, order) => do return ⟨name, ← SortDirection.read order⟩
    | none => .ok ⟨text, .ascending⟩

/-- Reads one key: a text, or a record of a field and a direction. -/
def read (v : Value) : Outcome SortKey :=
  match v with
  | .record members =>
    let name := (Record.get members "field").orElse (Record.get members "column")
    let order := ((Record.get members "order").orElse (Record.get members "direction")).orElse
      (.text "asc")
    match name with
    | .text name =>
      if name.isEmpty then refuse (.invalidSortEntry v)
      else do return ⟨name, ← SortDirection.read order.display⟩
    | _ => refuse (.invalidSortEntry v)
  | .text s => if (Text.trim s).isEmpty then refuse (.invalidSortEntry v) else readText s
  | _ => refuse (.invalidSortEntry v)

/-- Reads an order: texts with commas between them, a list of keys, one key, or a record of
directions under fields. -/
def readAll (v : Value) : Outcome (List SortKey) :=
  match v with
  | .null => .ok []
  | .text s => ((Text.split ',' s).filter fun part => !(Text.trim part).isEmpty).mapM readText
  | .record members =>
    if Named.has members "field" || Named.has members "column" then do return [← read v]
    else members.mapM fun (name, order) => do return ⟨name, ← SortDirection.read order.display⟩
  | .list items | .tuple items => items.mapM read
  | _ => refuse (.invalidSort v)

end SortKey

/-! ## Aggregates -/

/-- The functions of aggregates. -/
inductive AggregateFunction where
  | count
  | countDistinct
  | sum
  | avg
  | min
  | max
  | arrayAgg
deriving DecidableEq

namespace AggregateFunction

/-- The name of a function. -/
def name : AggregateFunction → String
  | .count => "count"
  | .countDistinct => "countDistinct"
  | .sum => "sum"
  | .avg => "avg"
  | .min => "min"
  | .max => "max"
  | .arrayAgg => "array_agg"

/-- The functions by their names; counting distinct values has two. -/
def names : List (String × AggregateFunction) := [
  ("count", .count), ("countDistinct", .countDistinct), ("sum", .sum), ("avg", .avg),
  ("min", .min), ("max", .max), ("array_agg", .arrayAgg), ("distinct", .countDistinct)]

/-- The function with a name. -/
def ofName? (s : String) : Option AggregateFunction :=
  names.lookup s

/-- The function works on numbers only. -/
def needsNumbers : AggregateFunction → Bool
  | .sum | .avg => true
  | _ => false

end AggregateFunction

/-- A function of all values of a field. -/
structure Aggregate where
  /-- The function. -/
  function : AggregateFunction
  /-- The field, or a star for all rows. -/
  field : String
deriving DecidableEq

namespace Aggregate

/-- The field that stands for all rows. -/
def allRows : String := "*"

/-- Reads an aggregate under a label: the name of a function, or a record of a function and a
field. -/
def read (label : String) (v : Value) : Outcome Aggregate := do
  let (function, field) ← match v with
    | .text _ => pure (v, Value.text allRows)
    | .record members =>
      pure (Record.get members "function",
        (Named.find? members "field").getD (.text allRows))
    | _ => refuse (.invalidAggregate label)
  let some f := function.text?.bind AggregateFunction.ofName?
    | refuse (.unknownAggregateFunction function label)
  match field with
  | .text field =>
    if field.isEmpty then refuse (.aggregateWithoutField label)
    else if field = allRows ∧ f ≠ .count then refuse (.aggregateNeedsField label)
    else return ⟨f, field⟩
  | _ => refuse (.aggregateWithoutField label)

end Aggregate

/-! ## Group keys -/

/-- The parts of a date that rows can be grouped by. -/
inductive DatePart where
  | year
  | quarter
  | month
  | week
  | day
  | dow
  | hour
  | minute
deriving DecidableEq

namespace DatePart

/-- The name of a part. -/
def name : DatePart → String
  | .year => "year"
  | .quarter => "quarter"
  | .month => "month"
  | .week => "week"
  | .day => "day"
  | .dow => "dow"
  | .hour => "hour"
  | .minute => "minute"

/-- All parts. -/
def all : List DatePart :=
  [.year, .quarter, .month, .week, .day, .dow, .hour, .minute]

/-- The part with a name. -/
def ofName? (s : String) : Option DatePart :=
  all.find? (·.name == s)

end DatePart

/-- A field that rows are grouped by, or a part of the date in it. -/
structure GroupKey where
  /-- The field. -/
  field : String
  /-- The part of the date. -/
  part : Option DatePart
deriving DecidableEq

namespace GroupKey

/-- The name of the column that holds the key. -/
def label (k : GroupKey) : String :=
  match k.part with
  | none => k.field
  | some part => k.field ++ "_" ++ part.name

/-- A name in small letters and a field in parentheses, if the text is such a call. -/
def call? (s : String) : Option (String × String) := do
  let (name, rest) ← Text.cutFirst '(' s.toList
  let field := rest.dropLast
  if !name.isEmpty && name.all (fun c => 'a' ≤ c && c ≤ 'z') && rest.getLast? == some ')' &&
      !field.isEmpty && field.all (fun c => Text.isWord c || c == '.') then
    some (String.ofList name, String.ofList field)
  else none

/-- Reads a group key: a field, or a part of the date in a field. -/
def read (v : Value) : Outcome GroupKey :=
  match v with
  | .text s =>
    let text := Text.trim s
    if text.isEmpty then refuse (.invalidGroupKey v)
    else
      match call? text with
      | none => .ok ⟨text, none⟩
      | some (part, field) =>
        match DatePart.ofName? part with
        | some part => .ok ⟨field, some part⟩
        | none => refuse (.unknownDatePart part)
  | _ => refuse (.invalidGroupKey v)

end GroupKey

/-! ## Requests -/

/-- What a caller asks of one collection. -/
structure Request where
  /-- The collection. -/
  collection : String
  /-- Which rows. -/
  filter : RawFilter
  /-- Which fields; all direct ones if absent. -/
  fields : Option (List String)
  /-- In which order. -/
  sort : List SortKey
  /-- Which page, from 1 on. -/
  page : Int
  /-- How many rows; all for -1. -/
  limit : Int
  /-- How many rows to pass over; takes the place of the page. -/
  offset : Option Int
  /-- What to search for. -/
  search : Option String
  /-- Where to search. -/
  searchFields : Option (List String)
  /-- Put the best matches first. -/
  sortByRelevance : Bool
  /-- The aggregates under their labels. -/
  aggregate : Named Aggregate
  /-- The group keys. -/
  groupBy : List GroupKey
  /-- Filters on related rows, under the names of relations. -/
  relConditions : Named RawFilter

/-- The request asks for aggregates instead of rows. -/
def Request.isAggregate (r : Request) : Bool :=
  !r.aggregate.isEmpty || !r.groupBy.isEmpty

/-- The request for all rows of a collection, up to a limit. -/
def Request.all (collection : String) (limit : Int) : Request where
  collection := collection
  filter := .raw .null
  fields := none
  sort := []
  page := 1
  limit := limit
  offset := none
  search := none
  searchFields := none
  sortByRelevance := false
  aggregate := []
  groupBy := []
  relConditions := []

end Warden
