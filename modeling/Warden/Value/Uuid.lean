import Warden.Number.IntegerText
import Warden.Calendar.Iso

/-! # Universally unique identifiers

An identifier is a number of 128 bits. It is written as 32 hexadecimal digits in groups of 8, 4,
4, 4 and 12, and read with or without hyphens, braces and the marks `urn:` and `uuid:`.
-/

namespace Warden

/-- A universally unique identifier. -/
structure Uuid where
  /-- The 128 bits as a number. -/
  number : Nat
deriving DecidableEq

namespace Uuid

/-- The 32 hexadecimal digits. -/
def digits (u : Uuid) : List Char :=
  let ds := Nat.toDigits 16 u.number
  List.replicate (32 - ds.length) '0' ++ ds

/-- The text in five groups. -/
def toText (u : Uuid) : String :=
  let ds := u.digits
  String.ofList (ds.take 8 ++ '-' :: (ds.drop 8).take 4 ++ '-' :: (ds.drop 12).take 4 ++
    '-' :: (ds.drop 16).take 4 ++ '-' :: ds.drop 20)

/-- The text without every occurrence of a mark; `fuel` bounds the number of steps. -/
def without (mark : List Char) : (fuel : Nat) → List Char → List Char
  | 0, cs => cs
  | _ + 1, [] => []
  | fuel + 1, c :: cs =>
    if mark.isPrefixOf (c :: cs) then without mark fuel ((c :: cs).drop mark.length)
    else c :: without mark fuel cs

/-- Reads an identifier. -/
def ofText? (s : String) : Option Uuid := do
  let cs := s.toList
  let cs := without "urn:".toList cs.length cs
  let cs := without "uuid:".toList cs.length cs
  let isBrace (c : Char) := c == '\x7b' || c == '\x7d'
  let cs := ((cs.dropWhile isBrace).reverse.dropWhile isBrace).reverse
  let cs := cs.filter (· != '-')
  if cs.length ≠ 32 then none
  else
    match ← IntegerText.readHex? cs with
    | .ofNat n => if n < Nat.pow 2 128 then some ⟨n⟩ else none
    | .negSucc _ => none

end Uuid

end Warden
