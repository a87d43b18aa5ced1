import Warden.Access.Grant
import Warden.Query.Merge
import Warden.Query.Request
import Warden.Query.Selection

/-! # Query plans

A **`Plan`** is a request made safe to run: its filter joined with the grant's condition, its fields
cut down to the grant's allowlist and its variables replaced.

* **`Filter.prune`** takes the conditions on hidden fields out of a filter. A hidden condition, and
  a negation with one below it, becomes a filter that everything matches, so leaving it out never
  narrows the result.
* **`Request.plan`** makes the plan of a request under a grant.
-/

namespace Warden

/-- A text to search for, and where. -/
structure Search where
  /-- The text. -/
  term : String
  /-- The fields. -/
  fields : List String
  /-- Put the best matches first. -/
  rank : Bool

/-- A request bounded by a grant. -/
structure Plan where
  /-- The collection. -/
  collection : String
  /-- Which rows. -/
  filter : Filter
  /-- The conditions on related rows, by relation. -/
  relConditions : Named Filter
  /-- What is returned. -/
  selection : Selection
  /-- The fields the caller may see. -/
  allowlist : Allowlist
  /-- The time of the request. -/
  now : DateTime
  /-- In which order. -/
  sort : List SortKey
  /-- How many rows; all for -1. -/
  limit : Int
  /-- How many rows to pass over. -/
  offset : Int
  /-- The search. -/
  search : Option Search
  /-- The aggregates under their labels. -/
  aggregate : Named Aggregate
  /-- The group keys. -/
  groupBy : List GroupKey

/-- The plan asks for aggregates instead of rows. -/
def Plan.isAggregate (p : Plan) : Bool :=
  !p.aggregate.isEmpty || !p.groupBy.isEmpty

/-! ## Hidden conditions -/

namespace Filter

/-- Every condition is on an allowed path. -/
def allAllowed (a : Allowlist) (f : Filter) : Bool :=
  f.conditions.all fun c => a.allowsPath c.field

mutual

/-- The filter without the conditions on hidden fields. -/
def prune (a : Allowlist) : Filter → Filter
  | .leaf c => if a.allowsPath c.field then .leaf c else .all
  | .conj fs => if a.isAll then .conj fs else conjoin (pruneAll a fs)
  | .disj fs => if a.isAll then .disj fs else disjoin (pruneAll a fs)
  | .neg f => if f.allAllowed a then .neg f else .all
  | .all => .all
  | .none => .none

/-- The filters without the conditions on hidden fields. -/
def pruneAll (a : Allowlist) : List Filter → List Filter
  | [] => []
  | f :: fs => prune a f :: pruneAll a fs

end

end Filter

/-! ## Parts of a plan -/

namespace Request

/-- The caller's conditions on related rows, without those on hidden fields. -/
def planRelConditions (reader : FilterReader) (c : Collection) (a : Allowlist) :
    Named RawFilter → Outcome (Named Filter)
  | [] => .ok []
  | (name, raw) :: rest =>
    match c.relation? name with
    | none => refuse (.unknownRelation name c.name)
    | some relation => do
      match ← reader.parse relation.target raw with
      | none => planRelConditions reader c a rest
      | some f =>
        let f := if a.allowsRelation name then f.prune (a.forRelation name) else .all
        return (name, f) :: (← planRelConditions reader c a rest)

/-- Refuses relation conditions of a grant on relations that the collection does not have. -/
def checkRelations (c : Collection) (relConditions : Named Filter) : Outcome Unit :=
  match List.find? (fun entry => !c.hasRelation entry.1) relConditions with
  | some (name, _) => refuse (.unknownRelation name c.name)
  | none => .ok ()

/-- Filters with every token replaced. -/
def resolveAll (r : Resolver) : Named Filter → Outcome (Named Filter)
  | [] => .ok []
  | (name, f) :: rest => do
    let f ← r.resolveFilter f
    return (name, f) :: (← resolveAll r rest)

/-- The aggregates on visible fields. -/
def planAggregate (c : Collection) (a : Allowlist) : Named Aggregate → Outcome (Named Aggregate)
  | [] => .ok []
  | (label, g) :: rest =>
    if g.field = Aggregate.allRows then do return (label, g) :: (← planAggregate c a rest)
    else
      match c.field? g.field with
      | none => refuse (.unknownAggregateField g.field label)
      | some f =>
        if g.function.needsNumbers ∧ f.type.family ≠ .numeric then
          refuse (.aggregateNotNumeric label g.function.name)
        else if a.allowsField g.field then do return (label, g) :: (← planAggregate c a rest)
        else planAggregate c a rest

/-- The group keys on visible fields. -/
def planGroups (c : Collection) (a : Allowlist) : List GroupKey → Outcome (List GroupKey)
  | [] => .ok []
  | k :: rest =>
    match c.field? k.field with
    | none => refuse (.unknownGroupField k.field)
    | some f =>
      match k.part with
      | some part =>
        if f.type.family ≠ .temporal then refuse (.groupFieldNotTemporal part.name k.field)
        else if a.allowsField k.field then do return k :: (← planGroups c a rest)
        else planGroups c a rest
      | none =>
        if a.allowsField k.field then do return k :: (← planGroups c a rest)
        else planGroups c a rest

/-- Refuses requests for aggregates of which nothing is visible. -/
def checkVisible (r : Request) (aggregate : Named Aggregate) (groups : List GroupKey) :
    Outcome Unit :=
  if r.isAggregate && aggregate.isEmpty && groups.isEmpty then refuse .accessDenied else .ok ()

/-- The columns of a plan for aggregates: the group keys and the aggregates. -/
def aggregateSelection (r : Request) (aggregate : Named Aggregate) (groups : List GroupKey) :
    Outcome Selection :=
  let labels := groups.map GroupKey.label
  let known (name : String) : Bool :=
    labels.contains name || groups.any (·.field == name) || aggregate.has name ||
      r.aggregate.has name
  match (r.fields.getD []).find? fun name => !known name with
  | some name => refuse (.fieldNotGrouped name)
  | none => .ok (.node (labels ++ aggregate.names) [])

/-- What a plan returns: the columns of its aggregates, or the visible part of the fields. -/
def planSelection (r : Request) (reader : FilterReader) (c : Collection) (a : Allowlist)
    (aggregate : Named Aggregate) (groups : List GroupKey) : Outcome Selection :=
  if r.isAggregate then r.aggregateSelection aggregate groups
  else (Selection.expand reader.catalog reader.maxDepth c r.fields).map (Selection.restrict a)

/-- The collection at the end of the relations of a sort path. -/
def followSort (k : Catalog) (c : Collection) : List String → Outcome Collection
  | [] => .ok c
  | segment :: rest =>
    match c.relation? segment with
    | none => refuse (.notARelation segment c.name)
    | some relation =>
      if relation.isToOne then
        match k.find? relation.target with
        | none => refuse (.danglingRelation segment)
        | some target => followSort k target rest
      else refuse (.sortByToMany segment)

/-- Refuses sort paths that do not lead through relations to one row to a field. -/
def checkSort (reader : FilterReader) (c : Collection) (path : String) : Outcome Unit := do
  let segments := Text.split '.' path
  if reader.maxDepth < (segments.length : Int) - 1 then refuse (.sortTooDeep path)
  let target ← followSort reader.catalog c segments.dropLast
  if target.hasField (segments.getLast?.getD "") then return () else refuse (.unknownSortField path)

/-- The order on visible fields. -/
def planSort (reader : FilterReader) (c : Collection) (a : Allowlist) :
    List SortKey → Outcome (List SortKey)
  | [] => .ok []
  | k :: rest => do
    checkSort reader c k.field
    if a.allowsPath k.field then return k :: (← planSort reader c a rest)
    else planSort reader c a rest

/-- Refuses to sort aggregates by anything but their columns. -/
def checkAggregateSort (aggregate : Named Aggregate) (groups : List GroupKey)
    (sort : List SortKey) : Outcome Unit :=
  match sort.find? fun k => !(groups.any (·.label == k.field) || aggregate.has k.field) with
  | some k => refuse (.sortNotGrouped k.field)
  | none => .ok ()

/-- The order of a plan: on the columns of its aggregates, or on visible fields. -/
def planOrder (r : Request) (reader : FilterReader) (c : Collection) (a : Allowlist)
    (aggregate : Named Aggregate) (groups : List GroupKey) : Outcome (List SortKey) :=
  if r.isAggregate then (checkAggregateSort aggregate groups r.sort).map fun _ => r.sort
  else planSort reader c a r.sort

/-- Refuses fields that cannot be searched. -/
def checkSearchField (c : Collection) (name : String) : Outcome Unit :=
  match c.field? name with
  | none => refuse (.unknownSearchField name)
  | some f => if f.type.family.searchable then .ok () else refuse (.fieldNotSearchable name)

/-- The search in visible fields. -/
def planSearch (r : Request) (c : Collection) (a : Allowlist) : Outcome (Option Search) := do
  let term := Text.trim (r.search.getD "")
  if term.isEmpty then return none
  let fields ← match r.searchFields.getD [] with
    | [] => pure c.searchableFields
    | given => do
      for name in given do checkSearchField c name
      pure given
  return some ⟨term, fields.filter a.allowsField, r.sortByRelevance⟩

/-- The limit and the offset of the page. -/
def paginate (r : Request) : Outcome (Int × Int) :=
  if r.limit < -1 then refuse (.invalidLimit r.limit)
  else
    match r.offset with
    | some offset => if offset < 0 then refuse (.invalidOffset offset) else .ok (r.limit, offset)
    | none =>
      if r.page < 1 then refuse (.invalidPage r.page)
      else if r.limit = -1 then .ok (r.limit, 0)
      else .ok (r.limit, (r.page - 1) * r.limit)

/-- The plan under which nothing matches. -/
def emptyPlan (collection : String) (a : Allowlist) (now : DateTime) : Plan where
  collection := collection
  filter := .none
  relConditions := []
  selection := .node [] []
  allowlist := a
  now := now
  sort := []
  limit := 0
  offset := 0
  search := none
  aggregate := []
  groupBy := []

/-- The plan of a request under a grant that is not denied. -/
def planGranted (r : Request) (reader : FilterReader) (c : Collection) (grant : Grant)
    (resolver : Resolver) : Outcome Plan := do
  let a := grant.allowlist
  let own ← reader.parse c.name r.filter
  let merged := mergeFilters (own.map (Filter.prune a)) grant.condition grant.unrestricted
  let filter ← resolver.resolveFilter merged
  let ownRel ← planRelConditions reader c a r.relConditions
  checkRelations c grant.relConditions
  let relConditions ←
    resolveAll resolver (mergeRelConditions ownRel grant.relConditions grant.unrestricted)
  let aggregate ← planAggregate c a r.aggregate
  let groupBy ← planGroups c a r.groupBy
  r.checkVisible aggregate groupBy
  let selection ← r.planSelection reader c a aggregate groupBy
  let sort ← r.planOrder reader c a aggregate groupBy
  let search ← r.planSearch c a
  let (limit, offset) ← r.paginate
  return {
    collection := c.name, filter, relConditions, selection, allowlist := a, now := resolver.now
    sort, limit, offset, search, aggregate, groupBy }

/-- The plan of a request under a grant. -/
def plan (r : Request) (reader : FilterReader) (grant : Grant) (resolver : Resolver) :
    Outcome Plan := do
  let c ← reader.catalog.find r.collection
  if grant.denied then return emptyPlan c.name grant.allowlist resolver.now
  r.planGranted reader c grant resolver

end Request

end Warden
