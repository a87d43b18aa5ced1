import Warden.Access.Allowlist
import Warden.Schema.Collection

/-! # Projection of rows

Rows that come back from the database are stripped of everything an allowlist hides: fields it does
not allow, relations it does not allow, and behind the relations it allows whatever its part for
them hides. Nothing else changes.

* **`Catalog.projectRow`** strips one row, **`Catalog.projectRows`** all rows.
* **`pickColumns`** keeps the given columns of rows of aggregates.
-/

namespace Warden

namespace Catalog

mutual

/-- The entries of a row of a collection that the allowlist shows. -/
def projectRow (k : Catalog) (collection : String) (a : Allowlist) :
    List (String × Value) → List (String × Value)
  | [] => []
  | (name, v) :: rest =>
    let shown := projectRow k collection a rest
    match k.relation? collection name with
    | none => if a.allowsField name then (name, v) :: shown else shown
    | some r =>
      if a.allowsRelation name then
        (name, projectRelated k r.target (a.forRelation name) v) :: shown
      else shown

/-- What the allowlist shows of the value of a relation: a row, or a list of rows among other
things. -/
def projectRelated (k : Catalog) (target : String) (a : Allowlist) : Value → Value
  | .record entries => .record (projectRow k target a entries)
  | .list items => .list (projectItems k target a items)
  | v => v

/-- What the allowlist shows of the items of a list. -/
def projectItems (k : Catalog) (target : String) (a : Allowlist) : List Value → List Value
  | [] => []
  | .record entries :: vs => .record (projectRow k target a entries) :: projectItems k target a vs
  | v :: vs => v :: projectItems k target a vs

end

/-- What the allowlist shows of rows of a collection. -/
def projectRows (k : Catalog) (collection : String) (a : Allowlist) (rows : List Value) :
    Outcome (List Record) :=
  rows.mapM fun row =>
    if a.isAll then Outcome.ofDefect row.entries
    else
      match row with
      | .record entries => .ok (projectRow k collection a entries)
      | _ => breakOff .missingMember

end Catalog

/-- The given columns of a row, as far as it has them. -/
def pickRow (columns : List String) : Value → Outcome Record
  | .record entries =>
    .ok (Named.ofEntries (columns.filterMap fun c =>
      (Named.find? entries c).map fun v => (c, v)))
  | row => do
    for c in columns do
      if ← row.contains (.text c) then breakOff .wrongKind
    return []

/-- The given columns of every row. -/
def pickColumns (columns : List String) (rows : List Value) : Outcome (List Record) :=
  rows.mapM (pickRow columns)

end Warden
