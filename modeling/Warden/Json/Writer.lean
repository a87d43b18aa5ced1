import Warden.Defect
import Warden.Value.Printed

/-! # Writing JSON

Values are written in ASCII, with a blank after every comma and colon; doubles by their shortest
text. Kinds that JSON does not know are either a defect or, where **`Style.widened`** is chosen,
written by their nearest JSON form: dates, times and identifiers as texts, decimals as doubles, sets
as lists.
-/

namespace Warden.Json

/-- What is done with the kinds that JSON does not know. -/
inductive Style where
  /-- They are a defect. -/
  | plain
  /-- They are written in their nearest form. -/
  | widened
deriving DecidableEq

/-- A code unit written with four hexadecimal digits. -/
def unitEscape (unit : Nat) : List Char :=
  '\\' :: 'u' :: Quoted.hex 4 unit

/-- A character as it stands in a string. -/
def escape (c : Char) : List Char :=
  if c = '"' ∨ c = '\\' then ['\\', c]
  else if c = '\n' then ['\\', 'n']
  else if c = '\r' then ['\\', 'r']
  else if c = '\t' then ['\\', 't']
  else if c = '\x08' then ['\\', 'b']
  else if c = '\x0c' then ['\\', 'f']
  else if 0x20 ≤ c.toNat ∧ c.toNat < 0x7f then [c]
  else if c.toNat < 0x10000 then unitEscape c.toNat
  else
    let n := c.toNat - 0x10000
    unitEscape (0xd800 + n / 0x400) ++ unitEscape (0xdc00 + n % 0x400)

/-- A string in quotes. -/
def string (s : String) : List Char :=
  '"' :: (s.toList.flatMap escape ++ ['"'])

/-- A double by its shortest text. -/
def float : Binary64 → List Char
  | .nan => "NaN".toList
  | .infinite negative => (if negative then "-Infinity" else "Infinity").toList
  | x => x.toText.toList

/-- The greatest number of digits of an integer that is written. -/
def writtenDigitLimit : Nat := 4300

/-- An integer in decimal digits. -/
def integer (n : Int) : Except Defect (List Char) :=
  if writtenDigitLimit < decimalLength n.natAbs then .error .invalidValue
  else .ok (toString n).toList

mutual

/-- The characters of a value. -/
def chars (style : Style) : Value → Except Defect (List Char)
  | .null => .ok "null".toList
  | .bool b => .ok (if b then "true" else "false").toList
  | .int n => integer n
  | .float x => .ok (float x)
  | .text s => .ok (string s)
  | .list items | .tuple items => do
    return Quoted.bracketed ['['] [']'] (← itemChars style items)
  | .record entries => do
    return Quoted.bracketed ['\x7b'] ['\x7d'] (← entryChars style entries)
  | .bytes _ => .error .wrongKind
  | .decimal d =>
    match style, d.toBinary64? with
    | .plain, _ => .error .wrongKind
    | .widened, some x => .ok (float x)
    | .widened, none => .error .invalidValue
  | .datetime t => if style = .plain then .error .wrongKind else .ok (string t.toIso)
  | .date d => if style = .plain then .error .wrongKind else .ok (string d.toIso)
  | .time t => if style = .plain then .error .wrongKind else .ok (string t.toIso)
  | .uuid u => if style = .plain then .error .wrongKind else .ok (string u.toText)
  | .set items =>
    if style = .plain then .error .wrongKind
    else do return Quoted.bracketed ['['] [']'] (← itemChars style items)

/-- The characters of every item. -/
def itemChars (style : Style) : List Value → Except Defect (List (List Char))
  | [] => .ok []
  | v :: vs => do
    let cs ← chars style v
    return cs :: (← itemChars style vs)

/-- The characters of every entry, with a colon after the name. -/
def entryChars (style : Style) : List (String × Value) → Except Defect (List (List Char))
  | [] => .ok []
  | (name, v) :: es => do
    let cs ← chars style v
    return (string name ++ ':' :: ' ' :: cs) :: (← entryChars style es)

end

/-- The JSON text of a value. -/
def write (style : Style) (v : Value) : Except Defect String :=
  (chars style v).map String.ofList

end Warden.Json
