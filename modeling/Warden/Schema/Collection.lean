import Warden.Refusal

/-! # Collections

A **`Collection`** is a table with typed fields and named relations to other collections. Columns
are named by keys of a type `κ`: texts in a collection that is put to use, any value in one as it
was stored.

A **`Catalog`** is the set of collections in use. **`Catalog.fieldType`** finds the type of the
field at the end of a dotted path.
-/

namespace Warden

/-- The kinds of relations. -/
inductive RelationType where
  /-- Many rows refer to one target. -/
  | manyToOne
  /-- One row refers to one target. -/
  | oneToOne
  /-- Many targets refer to one row. -/
  | oneToMany
  /-- Rows and targets are joined in a table of their own. -/
  | manyToMany
deriving DecidableEq

namespace RelationType

/-- The name of a kind. -/
def name : RelationType → String
  | .manyToOne => "M2O"
  | .oneToOne => "O2O"
  | .oneToMany => "O2M"
  | .manyToMany => "M2M"

/-- The names of the kinds, old ones included. -/
def names : List (String × RelationType) := [
  ("M2O", .manyToOne), ("O2O", .oneToOne), ("O2M", .oneToMany), ("M2M", .manyToMany),
  ("BelongsTo", .manyToOne), ("HasOne", .oneToOne), ("HasMany", .oneToMany),
  ("BelongsToMany", .manyToMany)]

/-- The kind with a name. -/
def ofName? (s : String) : Option RelationType :=
  names.lookup s

/-- A row has at most one target. -/
def isToOne : RelationType → Bool
  | .manyToOne | .oneToOne => true
  | .oneToMany | .manyToMany => false

end RelationType

/-- A named relation. -/
structure Relation (κ : Type := String) where
  /-- The name. -/
  name : String
  /-- The kind. -/
  type : RelationType
  /-- The collection at the other end. -/
  target : String
  /-- The column that holds the key of the other row: a column of this table for relations to one
  row, of the target's table for relations to many. -/
  foreignKey : Option κ
  /-- The joining table. -/
  through : Option κ
  /-- The joining table's column for this row. -/
  sourceKey : Option κ
  /-- The joining table's column for the target row. -/
  targetKey : Option κ

/-- A row has at most one target. -/
def Relation.isToOne {κ : Type} (r : Relation κ) : Bool :=
  r.type.isToOne

/-- A column that holds a value. -/
structure Field (κ : Type := String) where
  /-- The name. -/
  name : κ
  /-- The type of the values. -/
  type : FieldType
  /-- The column identifies the row. -/
  primaryKey : Bool
  /-- The value may be absent. -/
  allowNull : Bool

/-- A table with typed fields and named relations. -/
structure Collection (κ : Type := String) where
  /-- The name. -/
  name : String
  /-- The name of the table. -/
  table : String
  /-- Rows are marked as deleted and kept. -/
  paranoid : Bool
  /-- The fields, in order of declaration. -/
  fields : List (Field κ)
  /-- The relations, in order of declaration. -/
  relations : List (Relation κ)

namespace Collection

variable {κ : Type}

/-- The name of the table, that of the collection unless another one is given. -/
def tableName (c : Collection κ) : String :=
  if c.table.isEmpty then c.name else c.table

/-- The names of the fields, in order of declaration. -/
def fieldNames (c : Collection κ) : List κ :=
  c.fields.map (·.name)

/-- The fields that free-text search looks into. -/
def searchableFields (c : Collection κ) : List κ :=
  (c.fields.filter fun f => f.type.family.searchable).map (·.name)

/-- The relation with a name. -/
def relation? (c : Collection κ) (name : String) : Option (Relation κ) :=
  c.relations.find? (·.name == name)

/-- The field with a name. -/
def field? (c : Collection) (name : String) : Option Field :=
  c.fields.find? (·.name == name)

/-- The family of the field with a name. -/
def family? (c : Collection) (name : String) : Option TypeFamily :=
  (c.field? name).map (·.type.family)

/-- The collection has a field of this name. -/
def hasField (c : Collection) (name : String) : Bool :=
  (c.field? name).isSome

/-- The collection has a relation of this name. -/
def hasRelation (c : Collection κ) (name : String) : Bool :=
  (c.relation? name).isSome

/-- The first field declared as primary key. -/
def primaryKeyField? (c : Collection κ) : Option (Field κ) :=
  c.fields.find? (·.primaryKey)

/-- The column that identifies a row. -/
def primaryKey (c : Collection) : String :=
  match c.primaryKeyField? with
  | some f => f.name
  | none => "id"

end Collection

/-- The collections in use. -/
structure Catalog where
  /-- The collections, each under its own name. -/
  collections : List Collection

namespace Catalog

/-- The collection with a name. -/
def find? (k : Catalog) (name : String) : Option Collection :=
  k.collections.find? (·.name == name)

/-- The collection with a name. -/
def find (k : Catalog) (name : String) : Outcome Collection :=
  match k.find? name with
  | some c => .ok c
  | none => refuse (.notFound .collection name)

/-- The names of the collections, in code point order. -/
def names (k : Catalog) : List String :=
  Text.sorted (k.collections.map (·.name))

/-- The relation with a name on a collection, if both exist. -/
def relation? (k : Catalog) (collection name : String) : Option Relation :=
  (k.find? collection).bind (·.relation? name)

/-- The collection reached from another one by the relations of a path. -/
def follow (k : Catalog) (c : Collection) : List String → Outcome Collection
  | [] => .ok c
  | segment :: rest =>
    match c.relation? segment with
    | none => refuse (.notARelation segment c.name)
    | some r =>
      match k.find? r.target with
      | none => refuse (.danglingRelation segment)
      | some target => k.follow target rest

/-- The type of the field at a dotted path from a collection on. -/
def fieldType (k : Catalog) (collection path : String) : Outcome FieldType := do
  let c ← k.find collection
  let segments := Text.split '.' path
  let c ← k.follow c segments.dropLast
  let last := segments.getLast?.getD ""
  match c.field? last with
  | some f => return f.type
  | none =>
    if c.hasRelation last then refuse (.relationNotField path)
    else refuse (.unknownField path collection)

end Catalog

end Warden
