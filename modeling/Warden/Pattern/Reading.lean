import Warden.Defect
import Warden.Number.IntegerText
import Warden.Pattern.Basic

/-! # Parts of written patterns

What the written form of a pattern is made of, read from a list of **`Token`**s: single characters
and their codes, classes in brackets, the bounds of a repetition, references to groups and letters
for options. A **`Reader`** knows what is left to read and what groups there were, and turns a
pattern down with a **`Fault`**.

Names of groups are made of letters, numerals and underscores here, and no character is known by a
name.
-/

namespace Warden.Pattern

/-- Why a pattern is turned down. -/
inductive Fault where
  /-- It has no reading. -/
  | unreadable
  /-- It asks for too many repetitions. -/
  | tooLarge
  /-- It is nested too deep. -/
  | tooDeep
deriving DecidableEq

/-- The defect that a fault is. -/
def Fault.defect : Fault → Defect
  | .unreadable => .badPattern
  | .tooLarge => .overflow
  | .tooDeep => .tooDeep

/-! ## Tokens -/

/-- A character of a pattern, or a backslash with the character behind it. -/
inductive Token where
  /-- A character. -/
  | plain (c : Char)
  /-- A character behind a backslash. -/
  | escaped (c : Char)
  /-- A backslash at the end. -/
  | dangling
deriving DecidableEq

/-- The tokens of a pattern. -/
def tokens : List Char → List Token
  | [] => []
  | ['\\'] => [.dangling]
  | '\\' :: c :: cs => .escaped c :: tokens cs
  | c :: cs => .plain c :: tokens cs

/-! ## Reading -/

/-- What is left to read, and what is known of the groups. -/
structure Reading where
  /-- The tokens left. -/
  rest : List Token
  /-- The width of each group that was opened, once it is closed. -/
  groups : List (Option (Nat × Nat))
  /-- The names of groups. -/
  names : List (String × Nat)
  /-- How many groups there were where an assertion on what stands before was opened. -/
  behind : Option Nat
  /-- The greatest number of a group that a condition is on. -/
  asked : Nat

/-- A reader of a part of a pattern. -/
abbrev Reader := StateT Reading (Except Fault)

/-- There is no reading. -/
def unreadable {α : Type} : Reader α :=
  throw .unreadable

/-- There is no reading if the condition holds. -/
def refuseIf (b : Bool) : Reader Unit :=
  if b then unreadable else pure ()

/-- The token in front, if there is one. -/
def peek : Reader (Option Token) := do
  return (← get).rest.head?

/-- Leaves the token in front. A backslash at the end cannot be the next one. -/
def skip : Reader Unit := do
  let rest := (← get).rest.tail
  refuseIf (rest.head? = some .dangling)
  modify fun r => { r with rest }

/-- Leaves the token in front if it is the character, and says so. -/
def tryChar (c : Char) : Reader Bool := do
  if (← peek) = some (.plain c) then
    skip
    return true
  return false

/-- Leaves the character in front, which must be this one. -/
def expect (c : Char) : Reader Unit := do
  refuseIf (!(← tryChar c))

/-- Leaves the characters in front that have the property, at most so many, and gives them. -/
def takeWhile (p : Char → Bool) : Nat → Reader (List Char)
  | 0 => return []
  | n + 1 => do
    match ← peek with
    | some (.plain c) =>
      if p c then
        skip
        return c :: (← takeWhile p n)
      return []
    | _ => return []

/-- Leaves what stands before a character and the character, and gives what stands before it, which
must be there. -/
def takeUntil (stop : Char) : Reader String := do
  let cs ← takeWhile (· != stop) (← get).rest.length
  expect stop
  refuseIf cs.isEmpty
  return String.ofList cs

/-! ## Characters and classes -/

/-- A digit to base eight. -/
def isOctal (c : Char) : Bool :=
  '0' ≤ c && c ≤ '7'

/-- The number that digits write to a base. -/
def numberOf (base : Nat) (digits : List Char) : Nat :=
  digits.foldl (fun n c => base * n + ((IntegerText.hexDigit? c).getD 0)) 0

/-- Reads exactly so many digits to base sixteen. -/
def readCode (count : Nat) : Reader Nat := do
  let isHex (c : Char) := c.isDigit || ('a' ≤ c.toLower && c.toLower ≤ 'f')
  let digits ← takeWhile isHex count
  refuseIf (digits.length < count)
  return numberOf 16 digits

/-- The character that a backslash and a letter stand for. -/
def control? : Char → Option Nat
  | 'a' => some 7
  | 'f' => some 12
  | 'n' => some 10
  | 'r' => some 13
  | 't' => some 9
  | 'v' => some 11
  | '\\' => some 92
  | _ => none

/-- The class that a backslash and a letter stand for. -/
def class? : Char → Option CharTest
  | 'd' => some .digit
  | 'D' => some (.none .digit)
  | 's' => some .blank
  | 'S' => some (.none .blank)
  | 'w' => some .word
  | 'W' => some (.none .word)
  | _ => none

/-- The mark that a backslash and a letter stand for. -/
def mark? : Char → Option PlaceMark
  | 'A' => some .veryStart
  | 'Z' => some .veryEnd
  | 'b' => some (.border true)
  | 'B' => some (.border false)
  | _ => none

/-- Reads the code of a character whose escape begins with the given one, which is no digit. -/
def readEscape (c : Char) : Reader Nat := do
  match control? c with
  | some code => return code
  | none =>
    if c = 'x' then readCode 2
    else if c = 'u' then readCode 4
    else if c = 'U' then do
      let code ← readCode 8
      refuseIf (0x110000 ≤ code)
      return code
    else if c.isAlpha then unreadable
    else return c.toNat

/-- The code of octal digits, which has one byte. -/
def octal (digits : List Char) : Reader Nat := do
  let code := numberOf 8 digits
  refuseIf (0o377 < code)
  return code

/-- Reads an item of a class, or one end of a range in it, whose first token is the given one. -/
def readClassItem (t : Token) : Reader CharTest := do
  match t with
  | .plain c => return .char c.toNat
  | .dangling => unreadable
  | .escaped c =>
    if c = 'b' then return .char 8
    match class? c with
    | some test => return test
    | none =>
      if isOctal c then return .char (← octal (c :: (← takeWhile isOctal 2)))
      else if c.isDigit then unreadable
      else return .char (← readEscape c)

/-- Leaves the token in front, which must be there, and gives it. -/
def next : Reader Token := do
  match ← peek with
  | some t =>
    skip
    return t
  | none => unreadable

/-- Reads the items of a class up to its closing bracket. -/
def readClass : (fuel : Nat) → (items : List CharTest) → Reader (List CharTest)
  | 0, _ => unreadable
  | fuel + 1, items => do
    let t ← next
    if t = .plain ']' && !items.isEmpty then return items
    let low ← readClassItem t
    if ← tryChar '-' then
      let t ← next
      if t = .plain ']' then return items ++ [low, .char '-'.toNat]
      match low, ← readClassItem t with
      | .char a, .char b =>
        refuseIf (b < a)
        readClass fuel (items ++ [.range a b])
      | _, _ => unreadable
    else readClass fuel (items ++ [low])

/-! ## Repetitions -/

/-- The smallest number of repetitions that cannot be asked for. -/
def repetitionLimit : Nat := 4294967295

/-- The bounds that digits write; the greatest is absent where no digits stand for it. -/
def boundsOf (low high : List Char) : Reader (Nat × Option Nat) := do
  let least := numberOf 10 low
  let most := numberOf 10 high
  if repetitionLimit ≤ max least most then throw .tooLarge
  else
    refuseIf (!high.isEmpty && most < least)
    return (least, if high.isEmpty then none else some most)

/-- Reads bounds behind an opening brace, and nothing where the brace stands for itself. -/
def readBraces : Reader (Option (Nat × Option Nat)) := do
  let here ← get
  let length := here.rest.length
  let low ← takeWhile Char.isDigit length
  let isPair ← tryChar ','
  let high ← if isPair then takeWhile Char.isDigit length else pure low
  if (low.isEmpty && !isPair) || !(← tryChar '\x7d') then
    set here
    return none
  else return some (← boundsOf low high)

/-- The bounds of a repetition with the given sign; absent where a brace stands for itself. -/
def readBounds (sign : Char) : Reader (Option (Nat × Option Nat)) :=
  match sign with
  | '*' => return some (0, none)
  | '+' => return some (1, none)
  | '?' => return some (0, some 1)
  | _ => readBraces

/-! ## Groups -/

/-- The name of a group: it begins with a letter or an underscore. -/
def isName (s : String) : Bool :=
  match s.toList with
  | c :: cs => Text.isWord c && !Text.isDigit c && cs.all Text.isWord
  | [] => false

/-- Inside an assertion on what stands before, only groups that were closed before it count. -/
def checkBehind (number : Nat) : Reader Unit := do
  let r ← get
  refuseIf (r.behind.any fun count => (r.groups[number - 1]?.join).isNone || count < number)

/-- What a group matched. The group must be closed. -/
def reference (o : PatternOptions) (number : Nat) : Reader Pattern := do
  match ((← get).groups[number - 1]?).join with
  | some width =>
    checkBehind number
    return .again o number width
  | none => unreadable

/-- Opens a group and gives its number. No name is given twice. -/
def openGroup (name : Option String) : Reader Nat := do
  let r ← get
  let number := r.groups.length + 1
  refuseIf (name.any fun s => (r.names.lookup s).isSome)
  set { r with groups := r.groups ++ [none], names := (name.map (·, number)).toList ++ r.names }
  return number

/-- Closes a group. -/
def closeGroup (number : Nat) (p : Pattern) : Reader Unit :=
  modify fun r => { r with groups := r.groups.set (number - 1) (some p.width) }

/-- The greatest number of groups. -/
def groupLimit : Nat := 1073741823

/-- The number of the group with a name. -/
def numberNamed (name : String) : Reader Nat := do
  match (← get).names.lookup name with
  | some number => return number
  | none => unreadable

/-- The number of a group as it is written. There must be as many groups in the end. -/
def numberWritten (s : String) : Reader Nat := do
  let number := ((IntegerText.read? s).getD 0).toNat
  refuseIf (number = 0 || groupLimit ≤ number)
  modify fun r => { r with asked := max r.asked number }
  return number

/-- The number of the group that a condition is on, by its name or number. -/
def conditionNumber (s : String) : Reader Nat := do
  let number ← if isName s then numberNamed s else numberWritten s
  checkBehind number
  return number

/-- Reads a number of a group behind a backslash, or a code of three octal digits. -/
def readReference (o : PatternOptions) (c : Char) : Reader Pattern := do
  match ← takeWhile Char.isDigit 1 with
  | [d] =>
    if isOctal c && isOctal d then
      match ← takeWhile isOctal 1 with
      | [e] => return .char o (.char (← octal [c, d, e]))
      | _ => reference o (numberOf 10 [c, d])
    else reference o (numberOf 10 [c, d])
  | _ => reference o (numberOf 10 [c])

/-! ## Options -/

/-- A letter for an option. -/
def isOption (c : Char) : Bool :=
  ['i', 'L', 'm', 's', 'x', 'a', 't', 'u'].contains c

/-- The options that are turned on and off. -/
structure OptionChange where
  /-- The letters of those that are turned on. -/
  on : List Char
  /-- The letters of those that are turned off. -/
  off : List Char

/-- The options with a change. -/
def OptionChange.apply (change : OptionChange) (o : PatternOptions) : PatternOptions :=
  let value (c : Char) (old : Bool) := (old || change.on.contains c) && !change.off.contains c
  { anyCase := value 'i' o.anyCase, lines := value 'm' o.lines, dotAll := value 's' o.dotAll
    ascii := if change.on.contains 'u' then false else value 'a' o.ascii
    verbose := value 'x' o.verbose }

/-- Reads letters for options behind the first one, up to a character that is none. -/
def readLetters (first : Char) : Reader (List Char × Char) := do
  let letters ← takeWhile isOption (← get).rest.length
  match ← next with
  | .plain c => return (first :: letters, c)
  | _ => unreadable

/-- Reads the options that are turned off behind a hyphen, if those are turned on. -/
def readTurnedOff (on : List Char) : Reader OptionChange := do
  match ← next with
  | .plain c =>
    let (off, stop) ← readLetters c
    refuseIf (!isOption c || stop != ':' ||
      off.any fun l => ['a', 'L', 't', 'u'].contains l || on.contains l)
    return ⟨on, off⟩
  | _ => unreadable

/-- Reads a change of options whose first character is the given one; the answer says whether it is
one for the whole pattern. -/
def readOptions (first : Char) : Reader (OptionChange × Bool) := do
  let (on, stop) ← if first = '-' then pure ([], '-') else readLetters first
  refuseIf (on.contains 'L' || (on.contains 'a' && on.contains 'u'))
  if stop = ')' then return (⟨on, []⟩, true)
  else
    refuseIf (on.contains 't')
    if stop = ':' then return (⟨on, []⟩, false)
    else
      refuseIf (stop != '-')
      return (← readTurnedOff on, false)

/-- Leaves a comment behind its beginning. -/
def skipComment : Nat → Reader Unit
  | 0 => unreadable
  | fuel + 1 => do
    if (← next) != .plain ')' then skipComment fuel

/-- Leaves a comment up to the end of its line, or of the pattern. -/
def skipLine : Nat → Reader Unit
  | 0 => return
  | fuel + 1 => do
    match ← peek with
    | none => return
    | some t =>
      skip
      if t != .plain '\n' then skipLine fuel

/-- Blanks that are left out between the parts of a pattern. -/
def isFiller (c : Char) : Bool :=
  c == ' ' || ('\t' ≤ c && c ≤ '\r')

end Warden.Pattern
