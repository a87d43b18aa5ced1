import Warden.Value.Basic

/-! # Fragments of statements

A **`Fragment`** is a piece of SQL in which values stand where they belong. It has a text with a
placeholder for every value (**`Fragment.sql`**) and, beside it, the values in order
(**`Fragment.parameters`**). What is sent to the database is written and collected apart from it, in
`Warden.Sql.Rendering`, and comes to the same.
-/

namespace Warden.Sql

/-- A value beside a statement. -/
inductive Parameter where
  /-- A value as it is. -/
  | plain (v : Value)
  /-- A value to be stored as JSON. -/
  | json (v : Value)

/-- A piece of a fragment. -/
inductive Piece where
  /-- Text of the statement. -/
  | text (s : String)
  /-- A value. -/
  | parameter (p : Parameter)

/-- A part of a statement, or a whole one. -/
abbrev Fragment := List Piece

namespace Fragment

/-- What stands in the text for a value. -/
def placeholder : String := "%s"

/-- The text of a piece. -/
def pieceText : Piece → String
  | .text s => s
  | .parameter _ => placeholder

/-- The text of a fragment. -/
def sql (f : Fragment) : String :=
  String.join (f.map pieceText)

/-- The value in a piece. -/
def pieceParameter? : Piece → Option Parameter
  | .text _ => none
  | .parameter p => some p

/-- The values in a fragment, in order. -/
def parameters (f : Fragment) : List Parameter :=
  f.filterMap pieceParameter?

@[simp] theorem sql_append (f g : Fragment) : sql (f ++ g) = sql f ++ sql g := by
  simp [sql]

@[simp] theorem parameters_append (f g : Fragment) :
    parameters (f ++ g) = parameters f ++ parameters g := by
  simp [parameters]

/-- A fragment without values. -/
def ofText (s : String) : Fragment :=
  [.text s]

/-- A value alone. -/
def ofValue (v : Value) : Fragment :=
  [.parameter (.plain v)]

/-- A value to be stored as JSON alone. -/
def ofJson (v : Value) : Fragment :=
  [.parameter (.json v)]

/-- The fragments with a text between them. -/
def joined (separator : String) (fs : List Fragment) : Fragment :=
  (fs.intersperse (ofText separator)).flatten

/-- The fragment in parentheses. -/
def parenthesized (f : Fragment) : Fragment :=
  ofText "(" ++ f ++ ofText ")"

end Fragment

end Warden.Sql
