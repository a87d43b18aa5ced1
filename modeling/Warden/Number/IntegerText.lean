import Warden.Text.Blank
import Warden.Text.Digit

/-! # Integers as text

An integer is written with an optional sign and decimal digits of any script; single underscores
may stand between digits and blanks around the whole. Texts with more than `digitLimit` digits
are not read.
-/

namespace Warden.IntegerText

/-- The greatest number of digits that is read. -/
def digitLimit : Nat := 4300

/-- Reads digits with single underscores between them; `value?` gives the value of a digit, and
`afterDigit` says whether the text before ends in one. -/
def readGrouped? (value? : Char → Option Nat) : (afterDigit : Bool) → List Char → Option (List Nat)
  | true, [] => some []
  | false, [] => none
  | afterDigit, c :: cs =>
    if afterDigit && c == '_' then readGrouped? value? false cs
    else
      match value? c with
      | some d => (readGrouped? value? true cs).map (d :: ·)
      | none => none

/-- Splits an optional sign from a text. -/
def splitSign : List Char → Bool × List Char
  | '-' :: rest => (true, rest)
  | '+' :: rest => (false, rest)
  | cs => (false, cs)

/-- Reads a decimal integer. -/
def read? (s : String) : Option Int := do
  let (negative, cs) := splitSign (Text.trimChars s.toList)
  let digits ← readGrouped? Text.digitValue? false cs
  if digitLimit < digits.length then none
  else
    let n : Int := Text.numberOfDigits digits
    some (if negative then -n else n)

/-- The value of a digit to base sixteen. -/
def hexDigit? (c : Char) : Option Nat :=
  match Text.digitValue? c with
  | some d => some d
  | none =>
    let l := c.toLower
    if 'a' ≤ l ∧ l ≤ 'f' then some (l.toNat - 'a'.toNat + 10) else none

/-- Reads an integer to base sixteen, with or without the leading `0x`. -/
def readHex? (s : List Char) : Option Int := do
  let (negative, cs) := splitSign (Text.trimChars s)
  let cs := match cs with
    | '0' :: x :: rest =>
      if x = 'x' ∨ x = 'X' then (match rest with | '_' :: r => r | _ => rest) else cs
    | _ => cs
  let digits ← readGrouped? hexDigit? false cs
  let n : Nat := digits.foldl (fun n d => 16 * n + d) 0
  some (if negative then -(n : Int) else n)

end Warden.IntegerText
