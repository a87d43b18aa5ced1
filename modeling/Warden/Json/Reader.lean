import Warden.Value.Basic

/-! # Reading JSON

JSON texts become values; the members of an object keep the order in which they were written, and
a repeated name keeps its first place and takes its last value. The words `NaN`, `Infinity` and
`-Infinity` are numbers. Numbers with a point or an exponent are doubles, all others integers.

The reader works on lists of characters. A step is bounded by fuel computed from the length of the
text, which no text uses up.
-/

namespace Warden.Json

/-- Why a text is not read. -/
inductive ReadError where
  /-- The text is not JSON. -/
  | malformed
  /-- An integer has more digits than are read. -/
  | tooManyDigits
deriving DecidableEq

/-- The text without the white space in front. -/
def skipSpace (cs : List Char) : List Char :=
  cs.dropWhile fun c => c == ' ' || c == '\t' || c == '\n' || c == '\r'

/-! ## Strings -/

/-- The value of a hexadecimal digit. -/
def hexDigit? (c : Char) : Option Nat :=
  if '0' ≤ c ∧ c ≤ '9' then some (c.toNat - '0'.toNat)
  else if 'a' ≤ c ∧ c ≤ 'f' then some (c.toNat - 'a'.toNat + 10)
  else if 'A' ≤ c ∧ c ≤ 'F' then some (c.toNat - 'A'.toNat + 10)
  else none

/-- The code unit written by the four hexadecimal digits in front. -/
def codeUnit? : List Char → Option (Nat × List Char)
  | a :: b :: c :: d :: rest => do
    let a ← hexDigit? a
    let b ← hexDigit? b
    let c ← hexDigit? c
    let d ← hexDigit? d
    some (((a * 16 + b) * 16 + c) * 16 + d, rest)
  | _ => none

/-- The second half of a pair of code units, if one is written in front. -/
def lowUnit? : List Char → Option (Nat × List Char)
  | '\\' :: 'u' :: rest => do
    let (unit, rest) ← codeUnit? rest
    if 0xdc00 ≤ unit ∧ unit < 0xe000 then some (unit, rest) else none
  | _ => none

/-- The character that stands for half a pair without its other half. -/
def replacement : Char := '\ufffd'

/-- The character of a code unit, taking the second half of a pair from the text. -/
def unitChar (unit : Nat) (rest : List Char) : Char × List Char :=
  if 0xd800 ≤ unit ∧ unit < 0xdc00 then
    match lowUnit? rest with
    | some (low, rest) => (Char.ofNat (0x10000 + (unit - 0xd800) * 0x400 + (low - 0xdc00)), rest)
    | none => (replacement, rest)
  else if 0xdc00 ≤ unit ∧ unit < 0xe000 then (replacement, rest)
  else (Char.ofNat unit, rest)

/-- The character written by a backslash and one letter. -/
def shortEscape? : Char → Option Char
  | '"' => some '"'
  | '\\' => some '\\'
  | '/' => some '/'
  | 'b' => some '\x08'
  | 'f' => some '\x0c'
  | 'n' => some '\n'
  | 'r' => some '\r'
  | 't' => some '\t'
  | _ => none

/-- The characters up to the closing quote, and what follows it. -/
def readChars : (fuel : Nat) → List Char → Except ReadError (List Char × List Char)
  | 0, _ => .error .malformed
  | _ + 1, [] => .error .malformed
  | _ + 1, '"' :: rest => .ok ([], rest)
  | fuel + 1, '\\' :: 'u' :: rest =>
    match codeUnit? rest with
    | none => .error .malformed
    | some (unit, rest) => do
      let (c, rest) := unitChar unit rest
      let (cs, rest) ← readChars fuel rest
      return (c :: cs, rest)
  | fuel + 1, '\\' :: c :: rest =>
    match shortEscape? c with
    | none => .error .malformed
    | some c => do
      let (cs, rest) ← readChars fuel rest
      return (c :: cs, rest)
  | fuel + 1, c :: rest =>
    if c.toNat < 0x20 ∨ c = '\\' then .error .malformed
    else do
      let (cs, rest) ← readChars fuel rest
      return (c :: cs, rest)

/-- The string after an opening quote. -/
def readString (cs : List Char) : Except ReadError (String × List Char) := do
  let (chars, rest) ← readChars (cs.length + 1) cs
  return (String.ofList chars, rest)

/-! ## Numbers -/

/-- The greatest number of digits of an integer that is read. -/
def digitLimit : Nat := 4300

/-- The decimal digits in front, by value. -/
def takeDigits : List Char → List Nat × List Char
  | [] => ([], [])
  | c :: cs =>
    if '0' ≤ c ∧ c ≤ '9' then
      let (ds, rest) := takeDigits cs
      ((c.toNat - '0'.toNat) :: ds, rest)
    else ([], c :: cs)

/-- The digits before the point: a zero alone, or digits without a leading zero. -/
def takeWhole? : List Char → Option (List Nat × List Char)
  | '0' :: rest => some ([0], rest)
  | cs =>
    match takeDigits cs with
    | ([], _) => none
    | found => some found

/-- The digits after a point, if a point with digits stands in front. -/
def takeFraction : List Char → List Nat × List Char
  | '.' :: cs =>
    match takeDigits cs with
    | ([], _) => ([], '.' :: cs)
    | found => found
  | cs => ([], cs)

/-- The exponent, if one stands in front. -/
def takeExponent : List Char → Option Int × List Char
  | [] => (none, [])
  | e :: cs =>
    if e = 'e' ∨ e = 'E' then
      let (negative, after) := match cs with
        | '-' :: rest => (true, rest)
        | '+' :: rest => (false, rest)
        | _ => (false, cs)
      match takeDigits after with
      | ([], _) => (none, e :: cs)
      | (ds, rest) =>
        let n : Int := Text.numberOfDigits ds
        (some (if negative then -n else n), rest)
    else (none, e :: cs)

/-- The number in front, its sign already read. -/
def readNumber (negative : Bool) (cs : List Char) : Except ReadError (Value × List Char) :=
  match takeWhole? cs with
  | none => .error .malformed
  | some (whole, rest) =>
    let (fraction, rest) := takeFraction rest
    let (exponent, rest) := takeExponent rest
    if fraction.isEmpty ∧ exponent.isNone then
      if digitLimit < whole.length then .error .tooManyDigits
      else
        let n : Int := Text.numberOfDigits whole
        .ok (.int (if negative then -n else n), rest)
    else
      let x : Scaled := ⟨negative, Text.numberOfDigits (whole ++ fraction),
        exponent.getD 0 - fraction.length⟩
      .ok (.float (Binary64.ofScaled x), rest)

/-! ## Values -/

/-- What follows a word in front of the text. -/
def afterWord? (word : String) (cs : List Char) : Option (List Char) :=
  if word.toList.isPrefixOf cs then some (cs.drop word.length) else none

/-- The words that are values. -/
def words : List (String × Value) := [
  ("null", .null), ("true", .bool true), ("false", .bool false), ("NaN", .float .nan),
  ("Infinity", .float (.infinite false)), ("-Infinity", .float (.infinite true))]

/-- The word in front, with its value. -/
def readWord? (cs : List Char) : Option (Value × List Char) :=
  words.findSome? fun (word, v) => (afterWord? word cs).map fun rest => (v, rest)

mutual

/-- The value in front and what follows it. -/
def readValue : (fuel : Nat) → List Char → Except ReadError (Value × List Char)
  | 0, _ => .error .malformed
  | fuel + 1, cs =>
    match readWord? cs with
    | some found => .ok found
    | none =>
      match cs with
      | '"' :: rest => do
        let (s, rest) ← readString rest
        return (.text s, rest)
      | '[' :: rest =>
        match skipSpace rest with
        | ']' :: rest => .ok (.list [], rest)
        | rest => do
          let (items, rest) ← readItems fuel rest
          return (.list items, rest)
      | '\x7b' :: rest =>
        match skipSpace rest with
        | '\x7d' :: rest => .ok (.record [], rest)
        | rest => do
          let (entries, rest) ← readMembers fuel rest
          return (.record (Named.ofEntries entries), rest)
      | '-' :: rest => readNumber true rest
      | cs => readNumber false cs

/-- The items up to the closing bracket. -/
def readItems : (fuel : Nat) → List Char → Except ReadError (List Value × List Char)
  | 0, _ => .error .malformed
  | fuel + 1, cs => do
    let (v, rest) ← readValue fuel cs
    match skipSpace rest with
    | ',' :: rest =>
      let (vs, rest) ← readItems fuel (skipSpace rest)
      return (v :: vs, rest)
    | ']' :: rest => return ([v], rest)
    | _ => .error .malformed

/-- The members up to the closing brace. -/
def readMembers : (fuel : Nat) → List Char → Except ReadError (List (String × Value) × List Char)
  | 0, _ => .error .malformed
  | fuel + 1, cs =>
    match cs with
    | '"' :: rest => do
      let (name, rest) ← readString rest
      match skipSpace rest with
      | ':' :: rest =>
        let (v, rest) ← readValue fuel (skipSpace rest)
        match skipSpace rest with
        | ',' :: rest =>
          let (es, rest) ← readMembers fuel (skipSpace rest)
          return ((name, v) :: es, rest)
        | '\x7d' :: rest => return ([(name, v)], rest)
        | _ => .error .malformed
      | _ => .error .malformed
    | _ => .error .malformed

end

/-- Reads a JSON text as a whole. -/
def read (s : String) : Except ReadError Value := do
  let cs := s.toList
  let (v, rest) ← readValue (2 * cs.length + 2) (skipSpace cs)
  if (skipSpace rest).isEmpty then return v else .error .malformed

end Warden.Json
