import Warden.Text.Printable
import Warden.Value.Basic

/-! # Values in messages

Refusals quote the values they refuse. A value is shown in one of two forms:

* **`Value.written`** shows how it is written: texts in quotes, decimals, dates and identifiers with
  the name of their kind.
* **`Value.display`** shows a text as it is, dates, identifiers and decimals bare, and all else as
  `written`.
-/

namespace Warden

namespace Quoted

/-- A hexadecimal number of the given width. -/
def hex (width n : Nat) : List Char :=
  let digits := Nat.toDigits 16 n
  List.replicate (width - digits.length) '0' ++ digits

/-- A character as it stands between quotes. -/
def escape (quote c : Char) : List Char :=
  if c = quote ∨ c = '\\' then ['\\', c]
  else if c = '\n' then ['\\', 'n']
  else if c = '\r' then ['\\', 'r']
  else if c = '\t' then ['\\', 't']
  else if Text.isPrintable c then [c]
  else if c.toNat < 0x100 then '\\' :: 'x' :: hex 2 c.toNat
  else if c.toNat < 0x10000 then '\\' :: 'u' :: hex 4 c.toNat
  else '\\' :: 'U' :: hex 8 c.toNat

/-- The quotes around a text: single ones, or double ones if it holds single ones only. -/
def quoteFor (cs : List Char) : Char :=
  if cs.contains '\'' && !cs.contains '"' then '"' else '\''

/-- A text in quotes. -/
def text (s : String) : List Char :=
  let cs := s.toList
  let quote := quoteFor cs
  quote :: (cs.flatMap (escape quote) ++ [quote])

/-- An octet as it stands between quotes. -/
def escapeOctet (quote : Char) (o : UInt8) : List Char :=
  let c := Char.ofNat o.toNat
  if o.toNat < 0x7f then
    (if Text.isPrintable c ∨ c = '\n' ∨ c = '\r' ∨ c = '\t' then escape quote c
     else '\\' :: 'x' :: hex 2 o.toNat)
  else '\\' :: 'x' :: hex 2 o.toNat

/-- Octets in quotes. -/
def octets (os : List UInt8) : List Char :=
  let quote := quoteFor (os.map fun o => Char.ofNat o.toNat)
  'b' :: quote :: (os.flatMap (escapeOctet quote) ++ [quote])

/-- Numbers with commas between them. -/
def numbers (ns : List Nat) : List Char :=
  (String.intercalate ", " (ns.map fun n => Nat.repr n)).toList

/-- The parts of a time that are shown: seconds and microseconds only when they count. -/
def timeParts (t : Time) : List Nat :=
  [t.hour, t.minute] ++
    (if t.microsecond ≠ 0 then [t.second, t.microsecond]
     else if t.second ≠ 0 then [t.second] else [])

/-- A span of time by its days, seconds and microseconds. -/
def span (microseconds : Int) : List Char :=
  let days := microseconds.fdiv DateTime.dayLength
  let rest := microseconds.fmod DateTime.dayLength
  let part (name : String) (n : Int) := if n = 0 then [] else [name ++ "=" ++ toString n]
  let parts := part "days" days ++ part "seconds" (rest / 1000000) ++
    part "microseconds" (rest % 1000000)
  "datetime.timedelta(".toList ++ (String.intercalate ", " parts).toList ++ [')']

/-- An offset from universal time. -/
def zone (offset : Int) : List Char :=
  if offset = 0 then "datetime.timezone.utc".toList
  else "datetime.timezone(".toList ++ span offset ++ [')']

/-- An instant by its parts. -/
def instant (t : DateTime) : List Char :=
  "datetime.datetime(".toList ++
    numbers ([t.date.year, t.date.month, t.date.day] ++ timeParts t.time) ++
    (match t.offset with
      | some offset => ", tzinfo=".toList ++ zone offset
      | none => []) ++ [')']

/-- Pieces between brackets, with commas between them. -/
def bracketed (opening closing : List Char) (pieces : List (List Char)) : List Char :=
  opening ++ (List.intersperse [',', ' '] pieces).flatten ++ closing

end Quoted

namespace Value

mutual

/-- The characters of a value as it is written. -/
def writtenChars : Value → List Char
  | .null => "None".toList
  | .bool b => (if b then "True" else "False").toList
  | .int n => (toString n).toList
  | .float x => x.toText.toList
  | .decimal d => "Decimal('".toList ++ d.toText.toList ++ "')".toList
  | .text s => Quoted.text s
  | .bytes os => Quoted.octets os
  | .datetime t => Quoted.instant t
  | .date d => "datetime.date(".toList ++ Quoted.numbers [d.year, d.month, d.day] ++ [')']
  | .time t => "datetime.time(".toList ++ Quoted.numbers (Quoted.timeParts t) ++ [')']
  | .uuid u => "UUID('".toList ++ u.toText.toList ++ "')".toList
  | .list items => Quoted.bracketed ['['] [']'] (writtenItems items)
  | .tuple items =>
    match writtenItems items with
    | [one] => '(' :: one ++ [',', ')']
    | pieces => Quoted.bracketed ['('] [')'] pieces
  | .set items =>
    match writtenItems items with
    | [] => "set()".toList
    | pieces => Quoted.bracketed ['\x7b'] ['\x7d'] pieces
  | .record entries => Quoted.bracketed ['\x7b'] ['\x7d'] (writtenEntries entries)

/-- The items as they are written. -/
def writtenItems : List Value → List (List Char)
  | [] => []
  | v :: vs => writtenChars v :: writtenItems vs

/-- The entries as they are written, with a colon after the name. -/
def writtenEntries : List (String × Value) → List (List Char)
  | [] => []
  | (name, v) :: es => (Quoted.text name ++ ':' :: ' ' :: writtenChars v) :: writtenEntries es

end

/-- The value as it is written. -/
def written (v : Value) : String :=
  String.ofList v.writtenChars

/-- The value as it is shown. -/
def display : Value → String
  | .text s => s
  | .decimal d => d.toText
  | .datetime t => String.ofList (Iso.dateTimeChars ' ' t)
  | .date d => d.toIso
  | .time t => t.toIso
  | .uuid u => u.toText
  | v => v.written

end Value

end Warden
