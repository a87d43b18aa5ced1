import Warden.Schema.Collection

/-! # Stored definitions of collections

A definition is a record with the members `table`, `paranoid` and `fields`. A field with `relType`
is a relation, every other one holds values of its `type`. A relation to one row needs a column for
the key of its target; where no field is declared for it, one of type UUID is added.

* **`Collection.ofDefinition`** reads a definition; its join keys can be any values.
* **`Collection.textual`** is the step to a collection in use, whose columns all have texts as
  names.
-/

namespace Warden

/-- The value or, if it counts as false, a name made up for it. -/
def keyOr (v : Value) (name : String) : Value :=
  v.orElse (.text name)

/-- Reads a relation of a collection. -/
def Relation.ofSpec (collection name : String) (spec : Record) : Outcome (Relation Value) := do
  let kind := spec.get "relType"
  let some type := kind.text?.bind RelationType.ofName?
    | refuse (.unknownRelationType kind collection name)
  let some target := (spec.get "target").text?
    | refuse (.relationWithoutTarget collection name)
  if target.isEmpty then refuse (.relationWithoutTarget collection name)
  let foreignKey := spec.get "foreignKey"
  return match type with
  | .manyToMany =>
    { name, type, target, foreignKey := none
      through := some (keyOr (spec.get "through") s!"{collection}_{name}_junction")
      sourceKey := some (keyOr foreignKey s!"{collection}_id")
      targetKey := some (keyOr (spec.get "otherKey") s!"{target}_id") }
  | .oneToMany =>
    { name, type, target, foreignKey := some (keyOr foreignKey s!"{collection}_id")
      through := none, sourceKey := none, targetKey := none }
  | .manyToOne | .oneToOne =>
    { name, type, target, foreignKey := some (keyOr foreignKey s!"{name}_id")
      through := none, sourceKey := none, targetKey := none }

/-- Reads a field of a collection that holds values. -/
def Field.ofSpec (collection name : String) (spec : Record) : Outcome (Field Value) :=
  let kind := spec.get "type"
  match kind.text?.bind FieldType.ofName? with
  | some type =>
    .ok {
      name := .text name
      type
      primaryKey := ((spec.find? "primaryKey").getD (.bool false)).truthy
      allowNull := ((spec.find? "allowNull").getD (.bool true)).truthy }
  | none => refuse (.unknownFieldType kind collection name)

namespace Collection

/-- Reads the members of `fields`, relations and fields apart, each in order. -/
def readMembers (collection : String) :
    Record → Outcome (List (Field Value) × List (Relation Value))
  | [] => .ok ([], [])
  | (name, v) :: rest =>
    match v with
    | .record spec => do
      if Named.has spec "relType" then
        let r ← Relation.ofSpec collection name spec
        let (fields, relations) ← readMembers collection rest
        return (fields, r :: relations)
      else
        let f ← Field.ofSpec collection name spec
        let (fields, relations) ← readMembers collection rest
        return (f :: fields, relations)
    | _ => refuse (.invalidFieldDefinition collection name)

/-- Adds the columns for the keys of targets that are not declared as fields. -/
def addForeignKeys : List (Relation Value) → List (Field Value) → Outcome (List (Field Value))
  | [], fields => .ok fields
  | r :: rest, fields =>
    match r.isToOne, r.foreignKey with
    | true, some key =>
      if !key.hashable then breakOff .wrongKind
      else if fields.any (fun f => f.name.same key) then addForeignKeys rest fields
      else addForeignKeys rest (fields ++ [⟨key, .uuid, false, true⟩])
    | _, _ => addForeignKeys rest fields

/-- Reads a stored definition. -/
def ofDefinition (name : String) (definition : Value) : Outcome (Collection Value) :=
  match definition with
  | .record d =>
    match Record.get d "fields" with
    | .record [] => refuse (.collectionWithoutFields name)
    | .record members => do
      let (fields, relations) ← readMembers name members
      let fields ← addForeignKeys relations fields
      return {
        name, fields, relations
        table := ((Record.get d "table").orElse (.text name)).display
        paranoid := (Record.get d "paranoid").truthy }
    | _ => refuse (.collectionWithoutFields name)
  | _ => breakOff .missingMember

/-! ## Collections in use -/

/-- The text of a column's name. A column whose name is no text cannot be used. -/
def keyText : Value → Outcome String
  | .text s => .ok s
  | _ => breakOff .missingMember

/-- The text of a name that may be absent. -/
def keyText? : Option Value → Outcome (Option String)
  | none => .ok none
  | some v => do return some (← keyText v)

/-- A relation whose keys are texts. -/
def textualRelation (r : Relation Value) : Outcome Relation := do
  return {
    name := r.name, type := r.type, target := r.target
    foreignKey := ← keyText? r.foreignKey
    through := ← keyText? r.through
    sourceKey := ← keyText? r.sourceKey
    targetKey := ← keyText? r.targetKey }

/-- A field whose name is a text. -/
def textualField (f : Field Value) : Outcome Field := do
  return { name := ← keyText f.name, type := f.type, primaryKey := f.primaryKey,
           allowNull := f.allowNull }

/-- The collection with texts as the names of all columns. -/
def textual (c : Collection Value) : Outcome Collection := do
  return {
    name := c.name, table := c.table, paranoid := c.paranoid
    fields := ← c.fields.mapM textualField
    relations := ← c.relations.mapM textualRelation }

end Collection

/-- The collections of stored definitions, in order. -/
def Catalog.ofDefinitions (definitions : Record) : Outcome Catalog := do
  let stored ← definitions.mapM fun (name, definition) => Collection.ofDefinition name definition
  return ⟨← stored.mapM Collection.textual⟩

end Warden
