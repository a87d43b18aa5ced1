import Warden.Calendar.Basic

/-! # ISO 8601 texts of dates and times

* **`Date.toIso`**, **`Time.toIso`** and **`DateTime.toIso`** write one form: years of four digits,
  a fraction only when it is not zero, an offset only when it is known.
* **`Date.ofIso?`**, **`Time.ofIso?`** and **`DateTime.ofIso?`** read the basic and the extended
  forms, ordinary and week dates, and any one character between date and time.
-/

namespace Warden.Iso

/-! ## Writing -/

/-- A number with leading zeros, of at least the given width. -/
def padded (width n : Nat) : List Char :=
  let digits := (Nat.repr n).toList
  List.replicate (width - digits.length) '0' ++ digits

/-- Year, month and day. -/
def dateChars (d : Date) : List Char :=
  padded 4 d.year ++ '-' :: padded 2 d.month ++ '-' :: padded 2 d.day

/-- A fraction of a second in six digits, if there is one. -/
def fractionChars (microsecond : Nat) : List Char :=
  if microsecond = 0 then [] else '.' :: padded 6 microsecond

/-- Hour, minute and second. -/
def timeChars (t : Time) : List Char :=
  padded 2 t.hour ++ ':' :: padded 2 t.minute ++ ':' :: padded 2 t.second ++
    fractionChars t.microsecond

/-- The sign, hour and minute of an offset, and its seconds if there are any. -/
def offsetChars (offset : Int) : List Char :=
  let n := offset.natAbs
  let seconds := n / 1000000
  let fraction := n % 1000000
  (if offset < 0 then '-' else '+') :: padded 2 (seconds / 3600) ++ ':' ::
    padded 2 (seconds / 60 % 60) ++
    (if seconds % 60 = 0 ∧ fraction = 0 then []
     else ':' :: padded 2 (seconds % 60) ++ fractionChars fraction)

/-- Date and time with the given character between them. -/
def dateTimeChars (separator : Char) (t : DateTime) : List Char :=
  dateChars t.date ++ separator :: timeChars t.time ++
    match t.offset with
    | some offset => offsetChars offset
    | none => []

/-! ## Reading -/

/-- The value of an ASCII digit. -/
def digit? (c : Char) : Option Nat :=
  if '0' ≤ c ∧ c ≤ '9' then some (c.toNat - '0'.toNat) else none

/-- Reads exactly `count` digits. -/
def readDigits? : (count : Nat) → (value : Nat) → List Char → Option (Nat × List Char)
  | 0, value, cs => some (value, cs)
  | _ + 1, _, [] => none
  | count + 1, value, c :: cs => do
    let d ← digit? c
    readDigits? count (10 * value + d) cs

/-- Drops the character if it is the one in front. -/
def skip? (c : Char) : List Char → Option (List Char)
  | [] => none
  | d :: cs => if d = c then some cs else none

/-- Reads a date: year, month and day or year, week and day, with hyphens throughout or not at
all. The day of a week date may be left out; it is the Monday then. -/
def readDate? (cs : List Char) : Option Date := do
  let (year, cs) ← readDigits? 4 0 cs
  let (hyphens, cs) := match cs with
    | '-' :: rest => (true, rest)
    | _ => (false, cs)
  match cs with
  | 'W' :: cs =>
    let (week, cs) ← readDigits? 2 0 cs
    if cs.isEmpty then Date.ofWeek? year week 1
    else
      let cs ← if hyphens then skip? '-' cs else some cs
      let (day, _) ← readDigits? 1 0 cs
      Date.ofWeek? year week day
  | _ =>
    let (month, cs) ← readDigits? 2 0 cs
    let cs ← if hyphens then skip? '-' cs else some cs
    let (day, _) ← readDigits? 2 0 cs
    Date.of? year month day

/-- What a clock reading gives: hour, minute, second and microsecond, and whether the text ended
there. -/
structure Clock where
  /-- The hour. -/
  hour : Nat
  /-- The minute. -/
  minute : Nat
  /-- The second. -/
  second : Nat
  /-- The microsecond. -/
  microsecond : Nat
  /-- Nothing was left over. -/
  complete : Bool

/-- Reads a fraction: its first six digits count, further ones are dropped. -/
def readFraction? (hour minute second : Nat) (cs : List Char) : Option Clock := do
  let count := min 6 cs.length
  let (value, rest) ← readDigits? count 0 cs
  let rest := rest.dropWhile fun c => (digit? c).isSome
  some ⟨hour, minute, second, value * Nat.pow 10 (6 - count), rest.isEmpty⟩

/-- Reads hour, minute, second and fraction; everything after the hour may be left out, and the
colons may be left out together. -/
def readClock? (cs : List Char) : Option Clock := do
  let (hour, cs) ← readDigits? 2 0 cs
  match cs with
  | [] => some ⟨hour, 0, 0, 0, true⟩
  | [_] => some ⟨hour, 0, 0, 0, false⟩
  | c :: rest =>
    let colons := c == ':'
    if c == '.' || c == ',' then readFraction? hour 0 0 rest
    else
      let (minute, cs) ← readDigits? 2 0 (if colons then rest else cs)
      match cs with
      | [] => some ⟨hour, minute, 0, 0, true⟩
      | [_] => some ⟨hour, minute, 0, 0, false⟩
      | c :: rest =>
        if c == '.' || c == ',' then readFraction? hour minute 0 rest
        else if colons && c != ':' then none
        else
          let (second, cs) ← readDigits? 2 0 (if colons then rest else cs)
          match cs with
          | [] => some ⟨hour, minute, second, 0, true⟩
          | [_] => some ⟨hour, minute, second, 0, false⟩
          | c :: rest =>
            if c == '.' || c == ',' then readFraction? hour minute second rest
            else if colons && c != ':' then none
            else readFraction? hour minute second (if colons then rest else cs)

/-- Reads an offset: a sign and a clock reading of less than a day. -/
def readOffset? (negative : Bool) (cs : List Char) : Option Int := do
  let clock ← readClock? cs
  let n := ((clock.hour * 60 + clock.minute) * 60 + clock.second) * 1000000 + clock.microsecond
  if clock.complete ∧ n < DateTime.dayLength then some (if negative then -(n : Int) else n)
  else none

/-- Reads a time of day, with or without an offset. -/
def readTime? (cs : List Char) : Option (Time × Option Int) := do
  let isSign (c : Char) := c == '+' || c == '-' || c == 'Z'
  let before := cs.takeWhile fun c => !isSign c
  let zone := cs.dropWhile fun c => !isSign c
  let clock ← readClock? before
  let time : Time := ⟨clock.hour, clock.minute, clock.second, clock.microsecond⟩
  if !time.valid then none
  else
    match zone with
    | [] => if clock.complete then some (time, none) else none
    | 'Z' :: rest => if rest.isEmpty then some (time, some 0) else none
    | sign :: rest => return (time, some (← readOffset? (sign == '-') rest))

/-- Where the date part of a text with date and time ends. -/
def dateLength (cs : List Char) : Nat :=
  let at? (i : Nat) : Option Char := cs[i]?
  let isDigitAt (i : Nat) : Bool := ((at? i).bind digit?).isSome
  if cs.length = 7 then 7
  else if at? 4 = some '-' then
    if at? 5 = some 'W' then
      if at? 8 = some '-' then (if 10 < cs.length ∧ isDigitAt 10 then 8 else 10)
      else 8
    else 10
  else if at? 4 = some 'W' then
    let digits := ((cs.drop 7).takeWhile fun c => (digit? c).isSome).length
    if digits < 2 then 7 + digits
    else if digits % 2 = 1 then 7
    else 8
  else 8

end Warden.Iso

namespace Warden

/-- The ISO text of a date. -/
def Date.toIso (d : Date) : String :=
  String.ofList (Iso.dateChars d)

/-- The ISO text of a time of day. -/
def Time.toIso (t : Time) : String :=
  String.ofList (Iso.timeChars t)

/-- The ISO text of an instant. -/
def DateTime.toIso (t : DateTime) : String :=
  String.ofList (Iso.dateTimeChars 'T' t)

/-- Reads an ISO date of seven, eight or ten characters. -/
def Date.ofIso? (s : String) : Option Date :=
  let n := s.utf8ByteSize
  if n = 7 ∨ n = 8 ∨ n = 10 then Iso.readDate? s.toList else none

/-- Reads an ISO time of day without an offset. -/
def Time.ofIso? (s : String) : Option Time :=
  match Iso.readTime? (match s.toList with | 'T' :: cs => cs | cs => cs) with
  | some (time, none) => some time
  | _ => none

/-- Reads an ISO date with an optional time and offset after it. -/
def DateTime.ofIso? (s : String) : Option DateTime := do
  let cs := s.toList
  if cs.length < 7 then none
  else
    let n := Iso.dateLength cs
    let date ← Iso.readDate? (cs.take n)
    match cs.drop n with
    | [] => some ⟨date, ⟨0, 0, 0, 0⟩, none⟩
    | _ :: rest =>
      let (time, offset) ← Iso.readTime? rest
      some ⟨date, time, offset⟩

example : (DateTime.ofIso? "2024-03-15T12:00:00+02:00").map DateTime.toIso =
    some "2024-03-15T12:00:00+02:00" := by
  cbv

end Warden
