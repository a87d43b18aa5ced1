import Warden.Text.Digit

/-! # Exact numbers on a decimal scale

A **`Scaled`** number is `± c · 10 ^ e`. Integers, decimals and binary fractions all have this form,
so numbers of different types are compared exactly, without rounding. The comparison looks at the
orders of magnitude first; numbers of one magnitude have exponents that differ by no more than
their digits, so aligning them never writes out a huge power of ten.
-/

namespace Warden

/-- How many decimal digits a natural number has; zero has none. -/
def decimalLength (n : Nat) : Nat :=
  if n = 0 then 0 else (Nat.toDigits 10 n).length

/-- The number `± coefficient · 10 ^ exponent`. -/
structure Scaled where
  /-- The sign. -/
  negative : Bool
  /-- The digits, as one natural number. -/
  coefficient : Nat
  /-- The power of ten. -/
  exponent : Int
deriving DecidableEq

namespace Scaled

/-- An integer as a scaled number. -/
def ofInt (n : Int) : Scaled :=
  ⟨n < 0, n.natAbs, 0⟩

/-- The number of digits before the decimal point; negative for small fractions. -/
def order (x : Scaled) : Int :=
  decimalLength x.coefficient + x.exponent

/-- The coefficient on the finer of the two scales. -/
def aligned (x : Scaled) (exponent : Int) : Nat :=
  x.coefficient * Nat.pow 10 (x.exponent - exponent).toNat

/-- Compares the absolute values. -/
def compareMagnitude (x y : Scaled) : Ordering :=
  if x.coefficient = 0 then (if y.coefficient = 0 then .eq else .lt)
  else if y.coefficient = 0 then .gt
  else if x.order < y.order then .lt
  else if y.order < x.order then .gt
  else
    let exponent := min x.exponent y.exponent
    compare (x.aligned exponent) (y.aligned exponent)

/-- Compares two numbers exactly; the two zeros are equal. -/
def compare (x y : Scaled) : Ordering :=
  if x.coefficient = 0 ∧ y.coefficient = 0 then .eq
  else
    match x.negative, y.negative with
    | false, false => compareMagnitude x y
    | true, true => compareMagnitude y x
    | true, false => .lt
    | false, true => .gt

/-- The integer part: what is left after the fraction is dropped. -/
def truncate (x : Scaled) : Int :=
  let magnitude :=
    if x.exponent < 0 then x.coefficient / Nat.pow 10 (-x.exponent).toNat
    else x.coefficient * Nat.pow 10 x.exponent.toNat
  if x.negative then -magnitude else magnitude

example : (Scaled.mk false 15 (-1)).compare (ofInt 1) = .gt ∧ (ofInt (-1)).truncate = -1
    ∧ (Scaled.mk true 19 (-1)).truncate = -1
    ∧ (Scaled.mk false 1 (10 ^ 30)).compare (ofInt 7) = .gt := by
  decide

end Scaled

/-- A number or one of the values beside the numbers, as far as order is concerned. -/
inductive Extended where
  /-- An ordinary number. -/
  | number (x : Scaled)
  /-- Above or below every number. -/
  | infinite (negative : Bool)
  /-- Not a number: equal to nothing and without a place in the order. -/
  | nan
deriving DecidableEq

/-- The order of two values, if both have one. -/
def Extended.compare? : Extended → Extended → Option Ordering
  | .nan, _ => none
  | _, .nan => none
  | .number x, .number y => some (x.compare y)
  | .infinite a, .infinite b => some (if a = b then .eq else if a then .lt else .gt)
  | .infinite a, .number _ => some (if a then .lt else .gt)
  | .number _, .infinite b => some (if b then .gt else .lt)

end Warden
