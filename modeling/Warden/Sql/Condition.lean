import Warden.Filter.Basic
import Warden.Json.Writer
import Warden.Schema.Collection
import Warden.Sql.Predicate

/-! # Predicates of filters

**`Filter.predicate`** is the predicate that a filter stands for on the rows of a collection. A
condition on a path through relations asks for a row behind every one of them, so each relation
on a path adds a numbered table.
-/

namespace Warden

namespace Sql

/-- A construction that numbers the tables it adds. The state is the number given last. -/
abbrev Build := StateT Alias Outcome

/-- A number that no other table of the statement has. -/
def freshAlias : Build Alias := fun last => .ok (last + 1, last + 1)

/-! ## Relations -/

/-- The name of a join key, which must be there. -/
def joinKey (r : Relation) (key : Option String) : Outcome String :=
  match key with
  | some name => if name.isEmpty then refuse (.missingJoinKeys r.name) else .ok name
  | none => refuse (.missingJoinKeys r.name)

/-- The way from a row of a collection to the rows behind a relation, and their collection. -/
def joinRelation (k : Catalog) (c : Collection) (source : Alias) (name : String) :
    Build (Join × Collection) := do
  let some r := c.relation? name | refuse (.notARelation name c.name)
  let target ← k.find r.target
  let a ← freshAlias
  let targetRow : Column := ⟨a, target.primaryKey⟩
  let sourceRow : Column := ⟨source, c.primaryKey⟩
  let (junction, on) ← match r.type with
    | .manyToMany => do
      let b ← freshAlias
      let table ← joinKey r r.through
      let targetKey ← joinKey r r.targetKey
      let sourceKey ← joinKey r r.sourceKey
      let junction : Junction := ⟨table, b, ⟨targetRow, ⟨b, targetKey⟩⟩⟩
      pure (some junction, Correlation.mk ⟨b, sourceKey⟩ sourceRow)
    | .oneToMany => do
      let key ← joinKey r r.foreignKey
      pure (none, Correlation.mk ⟨a, key⟩ sourceRow)
    | .manyToOne | .oneToOne => do
      let key ← joinKey r r.foreignKey
      pure (none, Correlation.mk targetRow ⟨source, key⟩)
  return ({ table := target.tableName, tableAlias := a, junction, on, paranoid := target.paranoid },
    target)

/-! ## Conditions -/

/-- The text that a pattern is made of. -/
def patternText : Value → Outcome String
  | .text s => .ok s
  | .bytes _ | .datetime _ | .date _ | .time _ => breakOff .wrongKind
  | _ => breakOff .missingMember

/-- The bounds of a range. -/
def bounds (v : Value) : Outcome (Value × Value) :=
  match v with
  | .list vs | .tuple vs =>
    match vs with
    | low :: high :: _ => .ok (low, high)
    | _ => breakOff .missingIndex
  | .text s =>
    match s.toList with
    | low :: high :: _ => .ok (.text (String.ofList [low]), .text (String.ofList [high]))
    | _ => breakOff .missingIndex
  | .bytes (low :: high :: _) => .ok (.int low.toNat, .int high.toNat)
  | .bytes _ => breakOff .missingIndex
  | .record _ => breakOff .missingKey
  | _ => breakOff .wrongKind

/-- A member that a record must have. -/
def member (v : Value) (name : String) : Outcome Value :=
  match v with
  | .record entries =>
    match Named.find? entries name with
    | some w => .ok w
    | none => breakOff .missingKey
  | _ => breakOff .wrongKind

/-- The text of a geometry. -/
def geometryText (v : Value) : Outcome String :=
  Outcome.ofDefect (Json.write .plain v)

/-- The way in which values of a family are empty. -/
def containerOf : TypeFamily → Container
  | .array => .array
  | .json => .json
  | _ => .text

/-- The predicate of an operator with its value on an operand. -/
def operatorPredicate (op : Operator) (o : Operand) (family : TypeFamily) (v : Value) :
    Outcome Predicate :=
  let compare (c : Comparator) : Outcome Predicate := .ok (.test (.compare o c v))
  let pattern (c : Comparator) (before after : String) : Outcome Predicate := do
    let s ← patternText v
    return .test (.compare o c (.text (before ++ patternLiteral s ++ after)))
  let spatial (s : Spatial) : Outcome Predicate := do
    return .test (.spatial s o (← geometryText v))
  match op with
  | .eq => compare .equal
  | .gt => compare .greater
  | .gte => compare .greaterOrEqual
  | .lt => compare .less
  | .lte => compare .lessOrEqual
  | .like => compare .like
  | .notLike => compare .notLike
  | .iLike => compare .ilike
  | .notILike => compare .notIlike
  | .regex => compare .regex
  | .arrayContains => compare .contains
  | .arrayContainsAny => compare .overlaps
  | .arrayContained => compare .contained
  | .jsonHasKey => compare .hasKey
  | .neq => compare .distinct
  | .contains => pattern .like "%" "%"
  | .icontains => pattern .ilike "%" "%"
  | .ncontains => pattern .notLike "%" "%"
  | .startsWith => pattern .like "" "%"
  | .endsWith => pattern .like "%" ""
  | .nstartsWith => pattern .notLike "" "%"
  | .nendsWith => pattern .notLike "%" ""
  | .isIn =>
    if v.truthy then do return .test (.anyOf o (← Outcome.ofDefect v.elements))
    else .ok (.constant false)
  | .notIn =>
    if v.truthy then do return .test (.noneOf o (← Outcome.ofDefect v.elements))
    else .ok (.constant true)
  | .between => do
    let (low, high) ← bounds v
    return .test (.between o low high)
  | .nbetween => do
    let (low, high) ← bounds v
    return .test (.notBetween o low high)
  | .isNull => .ok (.test (if v.truthy then .isNull o else .isNotNull o))
  | .empty | .arrayEmpty =>
    let kind := containerOf family
    .ok (.test (if v.truthy then .empty kind o else .notEmpty kind o))
  | .arrayLength => .ok (.test (.length o v))
  | .jsonContains => .ok (.test (.jsonContains o v))
  | .jsonHasAnyKeys => do return .test (.anyKey o (← Outcome.ofDefect v.elements))
  | .jsonHasAllKeys => do return .test (.allKeys o (← Outcome.ofDefect v.elements))
  | .jsonPath => .ok (.test (.jsonPath o v))
  | .within => spatial .within
  | .containsGeo => spatial .contains
  | .intersects => spatial .intersects
  | .overlaps => spatial .overlaps
  | .nIntersects => do return .test (.notSpatial .intersects o (← geometryText v))
  | .dwithin => do
    let geometry ← geometryText (← member v "geometry")
    return .test (.near o geometry (← member v "distance"))

/-- The predicate of a condition on a field of a row. -/
def fieldPredicate (c : Collection) (row : Alias) (name : String) (condition : Condition) :
    Outcome Predicate :=
  match c.field? name with
  | none => refuse (.unknownField name c.name)
  | some field =>
    let column : Column := ⟨row, name⟩
    let plain := operatorPredicate condition.operator ⟨column, none⟩ field.type.family
      condition.value
    match condition.cast with
    | none => plain
    | some cast =>
      if cast.isEmpty then plain
      else
        match castFamily? cast with
        | none => breakOff .missingKey
        | some family =>
          operatorPredicate condition.operator ⟨column, some cast⟩ family condition.value

/-- The predicate of a condition on the field at the end of a path from a row on. -/
def pathPredicate (k : Catalog) (condition : Condition) :
    List String → Collection → Alias → Build Predicate
  | [], c, _ => refuse (.unknownField "" c.name)
  | [name], c, row => fieldPredicate c row name condition
  | relation :: rest, c, row => do
    let (j, target) ← joinRelation k c row relation
    return .exist j (← pathPredicate k condition rest target j.tableAlias)

end Sql

open Sql

namespace Filter

mutual

/-- The predicate that a filter stands for on a row of a collection. -/
def predicate (k : Catalog) (c : Collection) (row : Alias) : Filter → Build Predicate
  | .leaf condition => pathPredicate k condition (Text.split '.' condition.field) c row
  | .conj fs => do return .conj (← predicates k c row fs)
  | .disj fs => do return .disj (← predicates k c row fs)
  | .neg f => do return .neg (← predicate k c row f)
  | .all => return .constant true
  | .none => return .constant false

/-- The predicates that filters stand for on a row of a collection. -/
def predicates (k : Catalog) (c : Collection) (row : Alias) : List Filter → Build (List Predicate)
  | [] => return []
  | f :: fs => do
    let p ← predicate k c row f
    return p :: (← predicates k c row fs)

end

end Filter

namespace Sql

/-- The predicates that ask for rows behind relations of the base row. A condition that every row
matches asks for nothing. -/
def relationPredicates (k : Catalog) (c : Collection) : Named Filter → Build (List Predicate)
  | [] => return []
  | (name, f) :: rest =>
    if f.isAll then relationPredicates k c rest
    else do
      let (j, target) ← joinRelation k c baseAlias name
      let p ← f.predicate k target j.tableAlias
      return .exist j p :: (← relationPredicates k c rest)

end Sql

end Warden
