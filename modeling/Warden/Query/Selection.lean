import Warden.Access.Allowlist
import Warden.Schema.Collection

/-! # Selections

A **`Selection`** is what a query returns of every row: columns, and of related rows a selection of
their own.

* **`Selection.expand`** makes one of field paths, in which a star stands for all direct fields or,
  before the last place, for all relations.
* **`Selection.restrict`** keeps what an allowlist allows.
-/

namespace Warden

/-- Columns of a collection and selections behind its relations. -/
inductive Selection where
  /-- The selection of the columns and of the rows behind the relations. -/
  | node (columns : List String) (relations : List (String × Selection))

namespace Selection

/-- The columns of the collection itself. -/
def columns : Selection → List String
  | node columns _ => columns

/-- The selections behind relations. -/
def relations : Selection → Named Selection
  | node _ relations => relations

/-- Nothing is selected. -/
def isEmpty (s : Selection) : Bool :=
  s.columns.isEmpty && s.relations.isEmpty

instance : Inhabited Selection := ⟨node [] []⟩

/-! ## Expanding paths -/

/-- What one path adds to a selection. -/
structure Contribution where
  /-- Columns of the collection. -/
  columns : List String
  /-- Paths behind relations. -/
  nested : List (String × List String)

/-- What a path adds to the selection on a collection. -/
def contribution (c : Collection) (path : List String) : Outcome Contribution :=
  match path with
  | [] => .ok ⟨[], []⟩
  | segment :: rest =>
    if segment = wildcard then
      if rest.isEmpty then .ok ⟨c.fieldNames, []⟩
      else .ok ⟨[], c.relations.map fun r => (r.name, rest)⟩
    else if c.hasRelation segment then
      .ok ⟨[], [(segment, if rest.isEmpty then [wildcard] else rest)]⟩
    else if c.hasField segment then
      if rest.isEmpty then .ok ⟨[segment], []⟩ else refuse (.notARelation segment c.name)
    else refuse (.unknownField segment c.name)

/-- The paths gathered by relation, in the order in which relations are first named. -/
def gather (nested : List (String × List String)) : Named (List (List String)) :=
  nested.foldl
    (fun groups (name, path) => groups.insert name ((groups.find? name).getD [] ++ [path])) []

/-- The collection behind a relation. -/
def targetOf (k : Catalog) (c : Collection) (relation : String) : Outcome Collection :=
  match (c.relation? relation).bind fun r => k.find? r.target with
  | some target => .ok target
  | none => refuse (.danglingRelation relation)

/-- The selection of paths on a collection. The fuel bounds the depth; one more than the length of
the longest path is enough. -/
def ofPaths (k : Catalog) : (fuel : Nat) → Collection → List (List String) → Outcome Selection
  | 0, _, _ => .ok (node [] [])
  | fuel + 1, c, paths => do
    let parts ← paths.mapM (contribution c)
    let relations ← (gather (parts.flatMap (·.nested))).mapM fun (name, nested) => do
      let target ← targetOf k c name
      return (name, ← ofPaths k fuel target nested)
    return node (parts.flatMap (·.columns)).eraseDups relations

/-- The paths of a list of fields, all direct fields if none is given. Blank entries do not
count. -/
def pathsOf (fields : Option (List String)) : List (List String) :=
  let given := (fields.getD []).filterMap fun f =>
    let f := Text.trim f
    if f.isEmpty then none else some (Text.split '.' f)
  if given.isEmpty then [[wildcard]] else given

/-- Refuses paths that pass too many relations. -/
def checkDepth (limit : Int) (path : List String) : Outcome Unit :=
  if limit < (path.length : Int) - 1 then refuse (.pathTooDeep (Text.join "." path) limit)
  else .ok ()

/-- The selection of a list of fields on a collection. -/
def expand (k : Catalog) (maxDepth : Int) (c : Collection) (fields : Option (List String)) :
    Outcome Selection := do
  let paths := pathsOf fields
  for path in paths do checkDepth maxDepth path
  ofPaths k ((paths.map List.length).foldl max 0 + 1) c paths

/-! ## Restricting to an allowlist -/

mutual

/-- What the allowlist allows of a selection; relations of which nothing is left are dropped. -/
def restrict (a : Allowlist) : Selection → Selection
  | node columns relations =>
    if a.isAll then node columns relations
    else node (columns.filter a.allowsField) (restrictRelations a relations)

/-- What the allowlist allows behind relations. -/
def restrictRelations (a : Allowlist) : List (String × Selection) → List (String × Selection)
  | [] => []
  | (name, s) :: rest =>
    if a.allowsRelation name then
      let s := restrict (a.forRelation name) s
      if s.isEmpty then restrictRelations a rest else (name, s) :: restrictRelations a rest
    else restrictRelations a rest

end

end Selection

end Warden
