import Warden.Number.IntegerText
import Warden.Refusal

/-! # Rows of results

A **`Row`** is a tuple of cells, or a record of cells under labels. Cells are taken out by position;
a cell that is missing or of another kind than the table promises is a defect.
-/

namespace Warden

/-- A row of a result. -/
abbrev Row := Value

namespace Row

/-- The cell at a position. -/
def cell (r : Row) (n : Nat) : Outcome Value :=
  match r with
  | .tuple cells | .list cells =>
    match cells[n]? with
    | some v => .ok v
    | none => breakOff .missingIndex
  | .record _ => breakOff .missingKey
  | _ => breakOff .wrongKind

/-- The identifier at a position. -/
def uuid (r : Row) (n : Nat) : Outcome Uuid := do
  match ← r.cell n with
  | .uuid u => return u
  | _ => breakOff .wrongKind

/-- The text at a position. -/
def text (r : Row) (n : Nat) : Outcome String := do
  match ← r.cell n with
  | .text s => return s
  | _ => breakOff .wrongKind

/-- The first row of a result, unless it has no cells. -/
def first? (rows : List Row) : Option Row :=
  rows.head?.filter Value.truthy

/-- The first cell of every row. -/
def keys (rows : List Row) : Outcome (List Value) :=
  rows.mapM fun r => r.cell 0

/-- The integer that a number comes down to when its fraction is dropped. -/
def truncated : Extended → Outcome Int
  | .number x => .ok x.truncate
  | .infinite _ => breakOff .overflow
  | .nan => breakOff .invalidValue

/-- The integer that a value stands for. -/
def integer (v : Value) : Outcome Int :=
  match v with
  | .text s =>
    match IntegerText.read? s with
    | some n => .ok n
    | none => breakOff .invalidValue
  | v =>
    match v.number? with
    | some x => truncated x
    | none => breakOff .wrongKind

/-- The count in a result, zero if it has no row. -/
def total (rows : List Row) : Outcome Int :=
  match first? rows with
  | none => .ok 0
  | some r => do integer (← r.cell 0)

end Row

end Warden
