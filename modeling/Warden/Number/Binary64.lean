import Warden.Number.Scaled

/-! # Double precision numbers

**`Binary64`** is the set of double precision values as data: `± m · 2 ^ e` with at most 53 bits in
`m`, the two infinities and one value that is no number. Nothing is computed with them; they are
read from decimal text, compared exactly and written back.

* **`ofRatio`** rounds a quotient to the nearest double, ties to the even one.
* **`shortest`** is the shortest decimal that reads back, the nearest one of that length.
* **`toText`** writes it: positional from `10 ^ -4` up to `10 ^ 16`, with an exponent outside.
-/

namespace Warden

/-- A double precision value. -/
inductive Binary64 where
  /-- Not a number. -/
  | nan
  /-- One of the two infinities. -/
  | infinite (negative : Bool)
  /-- The number `± mantissa · 2 ^ exponent`. -/
  | finite (negative : Bool) (mantissa : Nat) (exponent : Int)
deriving DecidableEq

namespace Binary64

/-! ## Rounding -/

/-- The quotient of two natural numbers, rounded to the nearest one, ties to the even one. -/
def divideRounded (num den : Nat) : Nat :=
  let q := num / den
  let r := 2 * (num % den)
  if r < den then q else if den < r then q + 1 else if q % 2 = 0 then q else q + 1

/-- The exponent of the unit in the last place at `num / den`, for 53 bits of mantissa. -/
def unitExponent (num den : Nat) : Int :=
  let e : Int := (num.log2 : Int) - den.log2 - 52
  let reaches := if e < 0 then den * Nat.pow 2 52 ≤ num * Nat.pow 2 (-e).toNat
    else den * Nat.pow 2 e.toNat * Nat.pow 2 52 ≤ num
  max (-1074) (if reaches then e else e - 1)

/-- The double nearest to `± num / den`, ties to the even mantissa. -/
def ofRatio (negative : Bool) (num den : Nat) : Binary64 :=
  if num = 0 then .finite negative 0 (-1074)
  else
    let e := unitExponent num den
    let m :=
      if e < 0 then divideRounded (num * Nat.pow 2 (-e).toNat) den
      else divideRounded num (den * Nat.pow 2 e.toNat)
    let (m, e) := if m = Nat.pow 2 53 then (Nat.pow 2 52, e + 1) else (m, e)
    if 971 < e then .infinite negative else .finite negative m e

/-- The double nearest to a decimal number. Beyond the range of doubles the answer is known from
the order of magnitude alone. -/
def ofScaled (x : Scaled) : Binary64 :=
  if x.coefficient = 0 ∨ x.order < -400 then .finite x.negative 0 (-1074)
  else if 400 < x.order then .infinite x.negative
  else if x.exponent < 0 then ofRatio x.negative x.coefficient (Nat.pow 10 (-x.exponent).toNat)
  else ofRatio x.negative (x.coefficient * Nat.pow 10 x.exponent.toNat) 1

/-! ## Exact value -/

/-- The exact value, on a decimal scale. -/
def extended : Binary64 → Extended
  | .nan => .nan
  | .infinite negative => .infinite negative
  | .finite negative m e =>
    if e < 0 then .number ⟨negative, m * Nat.pow 5 (-e).toNat, e⟩
    else .number ⟨negative, m * Nat.pow 2 e.toNat, 0⟩

/-- Zero of either sign. -/
def isZero : Binary64 → Bool
  | .finite _ 0 _ => true
  | _ => false

/-! ## Shortest decimal text -/

/-- The first grid of at most `fuel` more digits on which a neighbour of `num / den` reads back as
`± m · 2 ^ e`; of two such neighbours the nearer one. `order` is the number of digits before the
point and `digits` the number of digits of the grid. -/
def shortestFrom (target : Binary64) (num den : Nat) (order : Int) : (fuel digits : Nat) → Scaled
  | 0, _ => ⟨false, 0, 0⟩
  | fuel + 1, digits =>
    let exponent := order - digits
    let (num', den') :=
      if exponent < 0 then (num * Nat.pow 10 (-exponent).toNat, den)
      else (num, den * Nat.pow 10 exponent.toNat)
    let below : Scaled := ⟨false, num' / den', exponent⟩
    let above : Scaled := ⟨false, num' / den' + 1, exponent⟩
    let nearest : Scaled := ⟨false, divideRounded num' den', exponent⟩
    if ofScaled nearest = target then nearest
    else if ofScaled below = target then below
    else if ofScaled above = target then above
    else shortestFrom target num den order fuel (digits + 1)

/-- The decimal with the fewest digits that reads back as `m · 2 ^ e`, for `m ≠ 0`. Seventeen
digits always suffice. -/
def shortest (m : Nat) (e : Int) : Scaled :=
  let (num, den) := if e < 0 then (m, Nat.pow 2 (-e).toNat) else (m * Nat.pow 2 e.toNat, 1)
  let guess : Int := (decimalLength num : Int) - decimalLength den
  let reaches :=
    if guess < 0 then den ≤ num * Nat.pow 10 (-guess).toNat
    else den * Nat.pow 10 guess.toNat ≤ num
  let order := if reaches then guess + 1 else guess
  shortestFrom (.finite false m e) num den order 17 1

/-- The digits without the zeros at the end. -/
def significant (digits : List Char) : List Char :=
  (digits.reverse.dropWhile (· == '0')).reverse

/-- The digits `0.d₁d₂… · 10 ^ order` in positional form when the leading digit stands between the
ten-thousandths and the sixteenth place before the point, otherwise with an exponent of at least
two digits. -/
def layout (digits : List Char) (order : Int) : List Char :=
  if -4 < order ∧ order ≤ 16 then
    if order ≤ 0 then '0' :: '.' :: (List.replicate (-order).toNat '0' ++ digits)
    else
      let before := digits.take order.toNat
      let after := digits.drop order.toNat
      before ++ List.replicate (order.toNat - before.length) '0' ++
        '.' :: (if after.isEmpty then ['0'] else after)
  else
    let exponent := order - 1
    let places := (Nat.repr exponent.natAbs).toList
    let places := if places.length < 2 then '0' :: places else places
    let mantissa := match digits with
      | d :: rest => if rest.isEmpty then [d] else d :: '.' :: rest
      | [] => []
    mantissa ++ 'e' :: (if exponent < 0 then '-' else '+') :: places

/-- The shortest text that reads back as the same double. -/
def toText : Binary64 → String
  | .nan => "nan"
  | .infinite negative => if negative then "-inf" else "inf"
  | .finite negative m e =>
    let sign := if negative then ['-'] else []
    if m = 0 then String.ofList (sign ++ ['0', '.', '0'])
    else
      let x := shortest m e
      let digits := significant (Nat.repr x.coefficient).toList
      String.ofList (sign ++ layout digits x.order)

end Binary64

end Warden
