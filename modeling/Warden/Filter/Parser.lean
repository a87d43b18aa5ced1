import Warden.Access.Variable
import Warden.Schema.Collection

/-! # Reading filters

A filter is written as a record. A member `AND`, `OR` or `NOT` combines further records; any other
member is a field with operators and their values under it, a single value or a list of values.
Fields of other collections are reached by dotted paths or by records nested under the names of
relations. Members of one record must all hold.

**`FilterReader.parse`** reads a filter and checks every condition against the catalog: the path
must lead to a field, the operator must apply to it, and the value must have the operator's shape
unless it holds a variable. **`FilterReader.validate`** makes the same checks on a tree.
-/

namespace Warden

/-- What filters are read against. -/
structure FilterReader where
  /-- The collections. -/
  catalog : Catalog
  /-- How many relations a path may pass. -/
  maxDepth : Int

/-- A filter as it is handed in: a record or any other value still to be read, or a tree. -/
inductive RawFilter where
  /-- A value to be read. -/
  | raw (v : Value)
  /-- A tree. -/
  | tree (f : Filter)

namespace FilterReader

/-- The member that casts the field before it is compared. -/
def castKey : String := "cast"

/-- The member that asks for a value to be present. -/
def notNullKey : String := "isNotNull"

/-- The name stands for an operator or a cast under a field. -/
def isOperatorKey (name : String) : Bool :=
  name == castKey || name == notNullKey || (Operator.ofName? name).isSome

/-- The number of relations that a path passes. -/
def depth (path : String) : Nat :=
  Text.countChar '.' path

/-- Refuses paths that pass too many relations. -/
def checkDepth (r : FilterReader) (path : String) (extra : Nat) : Outcome Unit :=
  if r.maxDepth < depth path + extra then refuse (.pathTooDeep path r.maxDepth) else .ok ()

/-- The family that a condition compares in: that of its cast or of its field. -/
def family (r : FilterReader) (collection : String) (c : Condition) : Outcome TypeFamily := do
  let type ← r.catalog.fieldType collection c.field
  match c.cast with
  | none => return type.family
  | some cast =>
    match castFamily? cast with
    | some family => return family
    | none => refuse (.unknownCast cast c.field)

/-- Refuses conditions that do not fit the catalog. -/
def checkCondition (r : FilterReader) (collection : String) (c : Condition) : Outcome Unit := do
  r.checkDepth c.field 0
  let family ← r.family collection c
  c.operator.checkApplies family c.field
  if c.value.hasVariable then return () else c.operator.checkValue c.value c.field

mutual

/-- Refuses trees with conditions that do not fit the catalog. -/
def validate (r : FilterReader) (collection : String) : Filter → Outcome Unit
  | .leaf c => r.checkCondition collection c
  | .conj fs | .disj fs => validateAll r collection fs
  | .neg f => validate r collection f
  | .all | .none => .ok ()

/-- Refuses lists of trees with conditions that do not fit the catalog. -/
def validateAll (r : FilterReader) (collection : String) : List Filter → Outcome Unit
  | [] => .ok ()
  | f :: fs => do
    validate r collection f
    validateAll r collection fs

end

/-- A checked condition. -/
def condition (r : FilterReader) (collection path : String) (op : Operator) (v : Value)
    (cast : Option String) : Outcome Filter := do
  let c : Condition := ⟨path, op, v, cast⟩
  r.checkCondition collection c
  return .leaf c

/-- The cast among the members under a field. -/
def readCast (path : String) (members : Record) : Outcome (Option String) :=
  match Record.get members castKey with
  | .null => .ok none
  | .text s =>
    let cast := Text.lower s
    if (castFamily? cast).isSome then .ok (some cast) else refuse (.castNotSupported (.text s) path)
  | v => refuse (.castNotSupported v path)

/-- The conditions of the members under a field. -/
def operatorConditions (r : FilterReader) (collection path : String) (cast : Option String) :
    Record → Outcome (List Filter)
  | [] => .ok []
  | (name, v) :: rest =>
    if name == castKey then operatorConditions r collection path cast rest
    else do
      let f ←
        if name == notNullKey then
          match v with
          | .bool b => r.condition collection path .isNull (.bool !b) cast
          | _ => refuse (.isNotNullNotBool path)
        else do
          let op ← Operator.ofName name path
          r.condition collection path op v cast
      return f :: (← operatorConditions r collection path cast rest)

/-- The filter of operators and their values under a field. -/
def readOperators (r : FilterReader) (collection path : String) (members : Record) :
    Outcome Filter := do
  let cast ← readCast path members
  let fs ← r.operatorConditions collection path cast members
  if fs.isEmpty then refuse (.noOperator path) else return Filter.conjoin fs

/-- The path consists of relations only. -/
def isRelationPath (r : FilterReader) : String → List String → Bool
  | _, [] => true
  | collection, segment :: rest =>
    match r.catalog.relation? collection segment with
    | some relation => isRelationPath r relation.target rest
    | none => false

mutual

/-- The filters of the members of a record, `base` standing before every field. -/
def readMembers (r : FilterReader) (collection base : String) :
    List (String × Value) → Outcome (List Filter)
  | [] => .ok []
  | (name, v) :: rest => do
    if name.isEmpty then refuse .emptyFilterKey
    let f ←
      if name == "AND" then (readList r collection base name v).map Filter.conjoin
      else if name == "OR" then (readList r collection base name v).map Filter.disjoin
      else if name == "NOT" then readNegation r collection base v
      else readField r collection (base ++ name) v
    return f :: (← readMembers r collection base rest)

/-- The filters of a list of records under a connective. -/
def readList (r : FilterReader) (collection base connective : String) :
    Value → Outcome (List Filter)
  | .list items | .tuple items => readItems r collection base connective items
  | _ => refuse (.connectiveNotList connective)

/-- The filters of records under a connective. -/
def readItems (r : FilterReader) (collection base connective : String) :
    List Value → Outcome (List Filter)
  | [] => .ok []
  | v :: vs => do
    let f ← match v with
      | .record entries => (readMembers r collection base entries).map Filter.conjoin
      | _ => refuse (.connectiveNotList connective)
    return f :: (← readItems r collection base connective vs)

/-- The negation of the filter of a record. -/
def readNegation (r : FilterReader) (collection base : String) : Value → Outcome Filter
  | .record entries =>
    (readMembers r collection base entries).map fun fs => Filter.negate (Filter.conjoin fs)
  | _ => refuse .negationNotObject

/-- The filter of what stands under a field or a relation. -/
def readField (r : FilterReader) (collection path : String) : Value → Outcome Filter
  | .record entries =>
    if entries.isEmpty then refuse (.noOperator path)
    else if entries.all fun entry => isOperatorKey entry.1 then
      r.readOperators collection path entries
    else if (!entries.any fun entry => isOperatorKey entry.1) &&
        r.isRelationPath collection (Text.split '.' path) then do
      r.checkDepth path 1
      return Filter.conjoin (← readMembers r collection (path ++ ".") entries)
    else
      match entries.find? fun entry => !isOperatorKey entry.1 with
      | some (name, _) => refuse (.unknownOperator name path)
      | none => refuse (.noOperator path)
  | .list items | .tuple items => r.condition collection path .isIn (.list items) none
  | v => r.condition collection path .eq v none

end

/-- Reads a filter on a collection. -/
def parseRecord (r : FilterReader) (collection : String) (entries : Record) : Outcome Filter := do
  return Filter.conjoin (← r.readMembers collection "" entries)

/-- Reads a filter or checks a tree; the absent value is no filter. -/
def parse (r : FilterReader) (collection : String) : RawFilter → Outcome (Option Filter)
  | .tree f => do
    r.validate collection f
    return some f
  | .raw .null => .ok none
  | .raw (.record entries) => do return some (← r.parseRecord collection entries)
  | .raw _ => refuse .filterNotObject

/-- Reads filters under names of relations, each against the relation's target. -/
def parseRelations (r : FilterReader) (collection : String) :
    Record → Outcome (List (String × Filter))
  | [] => .ok []
  | (name, v) :: rest =>
    match r.catalog.relation? collection name with
    | none => refuse (.unknownRelation name collection)
    | some relation => do
      match ← r.parse relation.target (.raw v) with
      | some f => return (name, f) :: (← parseRelations r collection rest)
      | none => parseRelations r collection rest

/-- Reads the relation conditions of a rule or request; a value that counts as false has none. -/
def parseRelConditions (r : FilterReader) (collection : String) (v : Value) :
    Outcome (List (String × Filter)) :=
  if v.truthy then
    match v with
    | .record entries => r.parseRelations collection entries
    | _ => refuse .relConditionsNotObject
  else .ok []

end FilterReader

end Warden
