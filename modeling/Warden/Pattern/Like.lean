import Warden.Text.Lowercase

/-! # Simple patterns

In a simple pattern a percent sign stands for any characters, an underscore for exactly one, and
every other character for itself. A pattern covers the text from its start to its end, or to a
line break at its end.
-/

namespace Warden

/-- A place of a simple pattern. -/
inductive LikePlace where
  /-- Any characters, possibly none. -/
  | any
  /-- Exactly one character. -/
  | one
  /-- This character. -/
  | char (c : Char)
deriving DecidableEq

namespace LikePlace

/-- The place that a character of a pattern stands for. -/
def ofChar (c : Char) : LikePlace :=
  if c = '%' then .any else if c = '_' then .one else .char c

/-- The places of a pattern. -/
def ofText (s : String) : List LikePlace :=
  s.toList.map ofChar

/-- What follows after some characters are left out has the property. -/
def skipSome (rest : List Char → Bool) : List Char → Bool
  | [] => rest []
  | c :: cs => rest (c :: cs) || skipSome rest cs

/-- The places cover the text, `same` telling which characters stand for each other. -/
def cover (same : Char → Char → Bool) : List LikePlace → List Char → Bool
  | [], cs => cs.isEmpty || cs == ['\n']
  | .any :: places, cs => skipSome (cover same places) cs
  | .one :: _, [] => false
  | .one :: places, _ :: cs => cover same places cs
  | .char _ :: _, [] => false
  | .char p :: places, c :: cs => same p c && cover same places cs

/-- The pattern covers the text. -/
def likes (pattern text : String) : Bool :=
  cover (· == ·) (ofText pattern) text.toList

/-- The pattern covers the text when case is not regarded. -/
def likesAnyCase (pattern text : String) : Bool :=
  cover Text.sameLetter (ofText pattern) text.toList

end LikePlace

end Warden
