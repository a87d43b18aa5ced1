import Warden.Text.Lowercase

/-! # Field types

The types a field of a collection can have. Types that admit the same operators form a
**`TypeFamily`**; a cast turns a field into a value of another family for one comparison.
-/

namespace Warden

/-- Field types that admit the same operators. -/
inductive TypeFamily where
  | text
  | identifier
  | numeric
  | boolean
  | temporal
  | json
  | array
  | geometry
deriving DecidableEq

namespace TypeFamily

/-- The name of a family. -/
def name : TypeFamily → String
  | .text => "text"
  | .identifier => "identifier"
  | .numeric => "numeric"
  | .boolean => "boolean"
  | .temporal => "temporal"
  | .json => "json"
  | .array => "array"
  | .geometry => "geometry"

/-- All families. -/
def all : List TypeFamily :=
  [.text, .identifier, .numeric, .boolean, .temporal, .json, .array, .geometry]

/-- The family with a name. -/
def ofName? (s : String) : Option TypeFamily :=
  all.find? (·.name == s)

/-- Free-text search looks into fields of this family. -/
def searchable : TypeFamily → Bool
  | .text | .identifier => true
  | _ => false

end TypeFamily

/-- The types of fields. -/
inductive FieldType where
  | string
  | text
  | html
  | enum
  | uuid
  | suid
  | integer
  | bigInt
  | float
  | real
  | double
  | decimal
  | boolean
  | date
  | dateTime
  | time
  | json
  | jsonb
  | array
  | geometry
  | point
  | lineString
  | polygon
deriving DecidableEq

namespace FieldType

/-- The name of a type. -/
def name : FieldType → String
  | .string => "String"
  | .text => "Text"
  | .html => "HTML"
  | .enum => "Enum"
  | .uuid => "UUID"
  | .suid => "SUID"
  | .integer => "Integer"
  | .bigInt => "BigInt"
  | .float => "Float"
  | .real => "Real"
  | .double => "Double"
  | .decimal => "Decimal"
  | .boolean => "Boolean"
  | .date => "Date"
  | .dateTime => "DateTime"
  | .time => "Time"
  | .json => "JSON"
  | .jsonb => "JSONB"
  | .array => "Array"
  | .geometry => "Geometry"
  | .point => "Point"
  | .lineString => "LineString"
  | .polygon => "Polygon"

/-- All types. -/
def all : List FieldType := [
  .string, .text, .html, .enum, .uuid, .suid, .integer, .bigInt, .float, .real, .double, .decimal,
  .boolean, .date, .dateTime, .time, .json, .jsonb, .array, .geometry, .point, .lineString,
  .polygon]

/-- The type with a name; capital and small letters are not told apart. -/
def ofName? (s : String) : Option FieldType :=
  let small := Text.lower s
  all.find? fun t => Text.lower t.name == small

/-- The family of a type. -/
def family : FieldType → TypeFamily
  | .string | .text | .html | .enum => .text
  | .uuid | .suid => .identifier
  | .integer | .bigInt | .float | .real | .double | .decimal => .numeric
  | .boolean => .boolean
  | .date | .dateTime | .time => .temporal
  | .json | .jsonb => .json
  | .array => .array
  | .geometry | .point | .lineString | .polygon => .geometry

end FieldType

/-- The casts, each with the family of the value it gives. -/
def castFamilies : List (String × TypeFamily) := [
  ("text", .text), ("varchar", .text), ("uuid", .identifier), ("numeric", .numeric),
  ("integer", .numeric), ("bigint", .numeric), ("double precision", .numeric),
  ("boolean", .boolean), ("date", .temporal), ("time", .temporal), ("timestamp", .temporal),
  ("timestamptz", .temporal), ("jsonb", .json)]

/-- The family of the value that a cast gives. -/
def castFamily? (cast : String) : Option TypeFamily :=
  castFamilies.lookup cast

end Warden
