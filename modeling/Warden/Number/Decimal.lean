import Warden.Number.Binary64
import Warden.Text.Blank

/-! # Decimal numbers

A **`Decimal`** keeps the digits and the exponent it was written with, so `1.50` and `1.5` are
different decimals of equal value. Infinities and the values that are no numbers belong to the
type.

* **`Decimal.ofText?`** reads one, **`Decimal.toText`** writes it.
* **`Decimal.extended`** is its value, as far as order is concerned.
-/

namespace Warden

/-- A decimal number as written. -/
inductive Decimal where
  /-- The number `± coefficient · 10 ^ exponent`. -/
  | finite (x : Scaled)
  /-- One of the two infinities. -/
  | infinite (negative : Bool)
  /-- Not a number; a signalling one may not even be compared. -/
  | nan (negative signalling : Bool) (payload : Nat)
deriving DecidableEq

namespace Decimal

/-- The value, as far as order is concerned. -/
def extended : Decimal → Extended
  | .finite x => .number x
  | .infinite negative => .infinite negative
  | .nan .. => .nan

/-- The nearest double; a signalling value has none. -/
def toBinary64? : Decimal → Option Binary64
  | .finite x => some (Binary64.ofScaled x)
  | .infinite negative => some (.infinite negative)
  | .nan _ signalling _ => if signalling then none else some .nan

/-- Zero of either sign. -/
def isZero : Decimal → Bool
  | .finite x => x.coefficient == 0
  | _ => false

/-! ## Reading -/

/-- The digits at the front of a text, by value, and what follows them. -/
def takeDigits : List Char → List Nat × List Char
  | [] => ([], [])
  | c :: cs =>
    match Text.digitValue? c with
    | some d => let (ds, rest) := takeDigits cs; (d :: ds, rest)
    | none => ([], c :: cs)

/-- The letters of ASCII in small. -/
def small (cs : List Char) : List Char :=
  cs.map Char.toLower

/-- The largest exponent of a readable decimal, in absolute value. -/
def exponentLimit : Nat := 999999999999999999

/-- Reads the exponent after the digits: nothing, or a letter `e`, a sign and digits. -/
def readExponent? : List Char → Option Int
  | [] => some 0
  | c :: cs =>
    if c.toLower ≠ 'e' then none
    else
      let (negative, cs) := match cs with
        | '-' :: rest => (true, rest)
        | '+' :: rest => (false, rest)
        | _ => (false, cs)
      match takeDigits cs with
      | (d :: ds, []) =>
        let n : Int := Text.numberOfDigits (d :: ds)
        some (if negative then -n else n)
      | _ => none

/-- Reads a number without its sign. -/
def readFinite? (negative : Bool) (cs : List Char) : Option Decimal := do
  let (whole, rest) := takeDigits cs
  let (fraction, rest) := match rest with
    | '.' :: after => takeDigits after
    | _ => ([], rest)
  if whole.isEmpty && fraction.isEmpty then none
  else
    let e ← readExponent? rest
    let x : Scaled := ⟨negative, Text.numberOfDigits (whole ++ fraction), e - fraction.length⟩
    if x.coefficient ≠ 0 ∧ (exponentLimit : Int) < x.order - 1 then none
    else if x.order.natAbs > 2 * exponentLimit then none
    else some (.finite x)

/-- Reads one of the values beside the numbers, without its sign. -/
def readSpecial? (negative : Bool) (cs : List Char) : Option Decimal :=
  let word := small cs
  if word = "inf".toList ∨ word = "infinity".toList then some (.infinite negative)
  else
    let (signalling, rest) := match word with
      | 's' :: rest => (true, rest)
      | _ => (false, word)
    match rest with
    | 'n' :: 'a' :: 'n' :: payload =>
      match takeDigits payload with
      | (ds, []) => some (.nan negative signalling (Text.numberOfDigits ds))
      | _ => none
    | _ => none

/-- Reads a decimal: blanks around it and underscores between its digits do not count. -/
def ofText? (s : String) : Option Decimal :=
  let cs := (Text.trimChars s.toList).filter (· != '_')
  let (negative, cs) := match cs with
    | '-' :: rest => (true, rest)
    | '+' :: rest => (false, rest)
    | _ => (false, cs)
  (readFinite? negative cs).or (readSpecial? negative cs)

/-! ## Writing -/

/-- A whole number with its sign always shown. -/
def signedText (n : Int) : List Char :=
  (if n < 0 then '-' else '+') :: (Nat.repr n.natAbs).toList

/-- A number as written: positional if no place is made up and the fraction has few leading zeros,
otherwise one digit before the point and an exponent. -/
def finiteText (x : Scaled) : List Char :=
  let digits := (Nat.repr x.coefficient).toList
  let order := x.exponent + digits.length
  let point := if x.exponent ≤ 0 ∧ -6 < order then order else 1
  let body :=
    if point ≤ 0 then '0' :: '.' :: (List.replicate (-point).toNat '0' ++ digits)
    else if (digits.length : Int) ≤ point then
      digits ++ List.replicate (point.toNat - digits.length) '0'
    else digits.take point.toNat ++ '.' :: digits.drop point.toNat
  let exponent := if order = point then [] else 'E' :: signedText (order - point)
  (if x.negative then ['-'] else []) ++ body ++ exponent

/-- The text of a decimal; it keeps the places it was written with. -/
def toText : Decimal → String
  | .finite x => String.ofList (finiteText x)
  | .infinite negative => if negative then "-Infinity" else "Infinity"
  | .nan negative signalling payload =>
    String.ofList ((if negative then ['-'] else []) ++ (if signalling then ['s'] else []) ++
      "NaN".toList ++ (if payload = 0 then [] else (Nat.repr payload).toList))

end Decimal

end Warden
