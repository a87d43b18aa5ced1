import Warden.Text.Basic

/-! # Quoted names and texts

A name stands in an SQL statement between double quotes, a text between single quotes; a quote
inside is written twice. In a pattern the three characters with a meaning of their own are written
after a backslash.
-/

namespace Warden.Sql

/-- The text with every occurrence of a character written twice. -/
def doubled (c : Char) (s : String) : String :=
  Text.expandChars (fun d => if d = c then [d, d] else [d]) s

/-- A name as it stands in a statement. -/
def identifier (name : String) : String :=
  "\"" ++ doubled '"' name ++ "\""

/-- A text as it stands in a statement. -/
def literal (s : String) : String :=
  "'" ++ doubled '\'' s ++ "'"

/-- The character has a meaning of its own in a pattern. -/
def isPatternChar (c : Char) : Bool :=
  c = '\\' || c = '%' || c = '_'

/-- The pattern that only the text itself matches. -/
def patternLiteral (s : String) : String :=
  Text.expandChars (fun c => if isPatternChar c then ['\\', c] else [c]) s

end Warden.Sql
