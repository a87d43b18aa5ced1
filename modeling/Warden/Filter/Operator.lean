import Warden.Schema.FieldType
import Warden.Value.Equality

/-! # Filter operators

An **`Operator`** compares a field with a value. Each has one contract: the families of fields it
applies to (`Operator.appliesTo`) and the **`Shape`** its value must have (`Operator.shape`).
-/

namespace Warden

/-- What the value of an operator must look like. -/
inductive Shape where
  /-- One value without parts. -/
  | scalar
  /-- One value without parts that is no truth value. -/
  | ordered
  /-- A list of values without parts. -/
  | scalarList
  /-- Two ordered values, from and to. -/
  | pair
  /-- A text. -/
  | string
  /-- A truth value. -/
  | bool
  /-- An integer that is not negative. -/
  | nonNegativeInt
  /-- Anything JSON can hold. -/
  | jsonValue
  /-- A list of texts that is not empty. -/
  | stringList
  /-- A GeoJSON geometry. -/
  | geometry
  /-- A geometry and a distance. -/
  | geoDistance
deriving DecidableEq

namespace Shape

/-- The name of a shape. -/
def name : Shape → String
  | .scalar => "scalar"
  | .ordered => "ordered"
  | .scalarList => "scalar_list"
  | .pair => "pair"
  | .string => "string"
  | .bool => "bool"
  | .nonNegativeInt => "non_negative_int"
  | .jsonValue => "json_value"
  | .stringList => "string_list"
  | .geometry => "geometry"
  | .geoDistance => "geo_distance"

/-- What an operator of this shape expects, as told to the caller. -/
def expectation : Shape → String
  | .scalar => "expects a single scalar value"
  | .ordered => "expects a comparable scalar value"
  | .scalarList => "expects a list of scalar values"
  | .pair => "expects a two-element list [from, to]"
  | .string => "expects a string"
  | .bool => "expects true or false"
  | .nonNegativeInt => "expects a non-negative integer"
  | .jsonValue => "expects a JSON value"
  | .stringList => "expects a non-empty list of strings"
  | .geometry => "expects a GeoJSON geometry"
  | .geoDistance => "expects \x7bgeometry: <GeoJSON>, distance: <number>\x7d"

end Shape

namespace Value

/-- The value has no parts. -/
def isScalar : Value → Bool
  | .text _ | .int _ | .float _ | .decimal _ | .bool _
  | .datetime _ | .date _ | .time _ | .uuid _ => true
  | _ => false

/-- The value has no parts and is no truth value. -/
def isOrdered (v : Value) : Bool :=
  v.isScalar && !v.isBool

/-- The value is a text. -/
def isText : Value → Bool
  | .text _ => true
  | _ => false

/-- JSON has values of this kind. -/
def isJson : Value → Bool
  | .null | .record _ | .list _ | .text _ | .int _ | .float _ | .bool _ => true
  | _ => false

/-- The types of geometries. -/
def geometryTypes : List String :=
  ["Point", "LineString", "Polygon", "MultiPoint", "MultiLineString", "MultiPolygon"]

/-- The value is a geometry: a record with a type of geometry and a list of coordinates. A type that
cannot be looked up is a defect. -/
def isGeometry (v : Value) : Except Defect Bool :=
  match v with
  | .record entries =>
    let type := Record.get entries "type"
    if type.hashable then
      match type with
      | .text s =>
        let isList := match Record.get entries "coordinates" with
          | .list _ => true
          | _ => false
        .ok (geometryTypes.contains s && isList)
      | _ => .ok false
    else .error .wrongKind
  | _ => .ok false

/-- The value is a number that is not negative. -/
def isDistance : Value → Bool
  | .int n => 0 ≤ n
  | .float x =>
    match x.extended.compare? (.number (Scaled.ofInt 0)) with
    | some .lt | none => false
    | _ => true
  | _ => false

end Value

/-- The value has the shape. -/
def Shape.accepts (shape : Shape) (v : Value) : Except Defect Bool :=
  match shape with
  | .scalar => .ok v.isScalar
  | .ordered => .ok v.isOrdered
  | .scalarList =>
    .ok (match v.items? with
      | some items => items.all Value.isScalar
      | none => false)
  | .pair =>
    .ok (match v.items? with
      | some items => items.length == 2 && items.all Value.isOrdered
      | none => false)
  | .string => .ok v.isText
  | .bool => .ok v.isBool
  | .nonNegativeInt =>
    .ok (match v with
      | .int n => 0 ≤ n
      | _ => false)
  | .jsonValue => .ok v.isJson
  | .stringList =>
    .ok (match v.items? with
      | some items => !items.isEmpty && items.all Value.isText
      | none => false)
  | .geometry => v.isGeometry
  | .geoDistance =>
    match v with
    | .record entries => do
      if ← (Record.get entries "geometry").isGeometry then
        return (Record.get entries "distance").isDistance
      else return false
    | _ => .ok false

/-- The filter operators. -/
inductive Operator where
  | eq
  | neq
  | gt
  | gte
  | lt
  | lte
  | isIn
  | notIn
  | like
  | notLike
  | iLike
  | notILike
  | contains
  | icontains
  | ncontains
  | startsWith
  | endsWith
  | nstartsWith
  | nendsWith
  | regex
  | between
  | nbetween
  | isNull
  | empty
  | arrayContains
  | arrayContainsAny
  | arrayContained
  | arrayLength
  | arrayEmpty
  | jsonContains
  | jsonHasKey
  | jsonHasAnyKeys
  | jsonHasAllKeys
  | jsonPath
  | within
  | containsGeo
  | intersects
  | nIntersects
  | overlaps
  | dwithin
deriving DecidableEq

namespace Operator

/-- The name of an operator. -/
def name : Operator → String
  | .eq => "eq"
  | .neq => "neq"
  | .gt => "gt"
  | .gte => "gte"
  | .lt => "lt"
  | .lte => "lte"
  | .isIn => "in"
  | .notIn => "nin"
  | .like => "like"
  | .notLike => "notLike"
  | .iLike => "iLike"
  | .notILike => "notILike"
  | .contains => "contains"
  | .icontains => "icontains"
  | .ncontains => "ncontains"
  | .startsWith => "startsWith"
  | .endsWith => "endsWith"
  | .nstartsWith => "nstartsWith"
  | .nendsWith => "nendsWith"
  | .regex => "regex"
  | .between => "between"
  | .nbetween => "nbetween"
  | .isNull => "isNull"
  | .empty => "empty"
  | .arrayContains => "arraycontains"
  | .arrayContainsAny => "arraycontainsany"
  | .arrayContained => "arraycontained"
  | .arrayLength => "arraylength"
  | .arrayEmpty => "arrayempty"
  | .jsonContains => "jsoncontains"
  | .jsonHasKey => "jsonhaskey"
  | .jsonHasAnyKeys => "jsonhasanykeys"
  | .jsonHasAllKeys => "jsonhasallkeys"
  | .jsonPath => "jsonpath"
  | .within => "within"
  | .containsGeo => "containsGEO"
  | .intersects => "intersects"
  | .nIntersects => "nIntersects"
  | .overlaps => "overlaps"
  | .dwithin => "dwithin"

/-- All operators. -/
def all : List Operator := [
  .eq, .neq, .gt, .gte, .lt, .lte, .isIn, .notIn, .like, .notLike, .iLike, .notILike, .contains,
  .icontains, .ncontains, .startsWith, .endsWith, .nstartsWith, .nendsWith, .regex, .between,
  .nbetween, .isNull, .empty, .arrayContains, .arrayContainsAny, .arrayContained, .arrayLength,
  .arrayEmpty, .jsonContains, .jsonHasKey, .jsonHasAnyKeys, .jsonHasAllKeys, .jsonPath, .within,
  .containsGeo, .intersects, .nIntersects, .overlaps, .dwithin]

/-- Other spellings of operators. -/
def aliases : List (String × Operator) := [
  ("ne", .neq), ("notIn", .notIn), ("ilike", .iLike), ("notBetween", .nbetween),
  ("startswith", .startsWith), ("startsWiths", .startsWith), ("endswith", .endsWith),
  ("endsWiths", .endsWith), ("nstartsWiths", .nstartsWith), ("nendsWiths", .nendsWith),
  ("arrayoverlap", .arrayContainsAny), ("jsonbContains", .jsonContains),
  ("jsonbHasKey", .jsonHasKey), ("jsonbHasAnyKeys", .jsonHasAnyKeys),
  ("jsonbHasAllKeys", .jsonHasAllKeys), ("jsonbPathExists", .jsonPath)]

/-- The operator with a name or another spelling. -/
def ofName? (s : String) : Option Operator :=
  (all.find? (·.name == s)).or (aliases.lookup s)

/-- The shape of an operator's value. -/
def shape : Operator → Shape
  | .eq | .neq => .scalar
  | .gt | .gte | .lt | .lte => .ordered
  | .isIn | .notIn => .scalarList
  | .like | .notLike | .iLike | .notILike | .contains | .icontains | .ncontains | .startsWith
  | .endsWith | .nstartsWith | .nendsWith | .regex => .string
  | .between | .nbetween => .pair
  | .isNull | .empty => .bool
  | .arrayContains | .arrayContainsAny | .arrayContained => .scalarList
  | .arrayLength => .nonNegativeInt
  | .arrayEmpty => .bool
  | .jsonContains => .jsonValue
  | .jsonHasKey | .jsonPath => .string
  | .jsonHasAnyKeys | .jsonHasAllKeys => .stringList
  | .within | .containsGeo | .intersects | .nIntersects | .overlaps => .geometry
  | .dwithin => .geoDistance

/-- The families whose fields an operator applies to. -/
def families : Operator → List TypeFamily
  | .eq | .neq | .isIn | .notIn => [.text, .identifier, .numeric, .boolean, .temporal]
  | .gt | .gte | .lt | .lte | .between | .nbetween => [.text, .numeric, .temporal]
  | .like | .notLike | .iLike | .notILike | .contains | .icontains | .ncontains | .startsWith
  | .endsWith | .nstartsWith | .nendsWith | .regex => [.text]
  | .isNull => TypeFamily.all
  | .empty => [.text, .array, .json]
  | .arrayContains | .arrayContainsAny | .arrayContained | .arrayLength | .arrayEmpty => [.array]
  | .jsonContains | .jsonHasKey | .jsonHasAnyKeys | .jsonHasAllKeys | .jsonPath => [.json]
  | .within | .containsGeo | .intersects | .nIntersects | .overlaps | .dwithin => [.geometry]

/-- The operator applies to fields of the family. -/
def appliesTo (op : Operator) (family : TypeFamily) : Bool :=
  op.families.contains family

end Operator

end Warden
