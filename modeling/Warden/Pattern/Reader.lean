import Warden.Pattern.Reading

/-! # Reading regular patterns

The written form of patterns. Outside of classes a character stands for itself, but for the point,
`^`, `$`, classes in brackets, groups in parentheses, choices after a bar, the repetitions `*`, `+`,
`?` and `{m,n}` with `?` or `+` behind them, and the backslash, which stands before classes, marks,
codes of characters and numbers of groups. `(?` opens a comment, options, an assertion, a condition
on a group, an atomic part, or a group that has a name or is not remembered.

Groups are read by calls within calls. So many calls can be open at a time (**`callLimit`**), and
**`sequenceReader`** is a recursion on how many are left: a group takes two of them, a branch of a
condition one. What was read is prepared by calls within calls again (**`Pattern.calls`**). A
pattern that needs more is nested too deep. -/

namespace Warden.Pattern

/-- How many calls can be open at a time while a pattern is read or prepared: what the limit of a
thousand leaves when few others are open. -/
def callLimit : Nat := 976

/-! ## Sequences -/

/-- What was read last. -/
inductive LastItem where
  /-- Nothing yet. -/
  | nothing
  /-- A mark, which cannot be repeated. -/
  | mark
  /-- A repetition, which cannot be repeated. -/
  | repetition
  /-- Something that can be repeated. -/
  | other

/-- The parts of a sequence that were read so far. -/
structure Items where
  /-- All but the last one. -/
  front : Pattern
  /-- The last one. -/
  last : Pattern
  /-- What it is. -/
  kind : LastItem

namespace Items

/-- No parts. -/
def empty : Items := ⟨Pattern.empty, Pattern.empty, .nothing⟩

/-- The parts with one more. -/
def add (items : Items) (p : Pattern) (kind : LastItem) : Items :=
  ⟨.seq items.front items.last, p, kind⟩

/-- All parts. -/
def pattern (items : Items) : Pattern :=
  .seq items.front items.last

end Items

/-- A reader of a sequence up to a bar, a closing parenthesis or the end. -/
abbrev SequenceReader := PatternOptions → Reader Pattern

/-- Reads choices up to a closing parenthesis or the end. -/
def readChoices (sequence : SequenceReader) (o : PatternOptions) : (fuel : Nat) → Reader Pattern
  | 0 => unreadable
  | fuel + 1 => do
    let p ← sequence o
    if ← tryChar '|' then return .choice p (← readChoices sequence o fuel)
    return p

/-- Reads what stands in parentheses, up to the closing one. -/
def readInside (choices : SequenceReader) (o : PatternOptions) : Reader Pattern := do
  let p ← choices o
  expect ')'
  return p

/-- Reads a group that is remembered. -/
def readGroup (choices : SequenceReader) (o : PatternOptions) (name : Option String) :
    Reader Pattern := do
  let number ← openGroup name
  let p ← readInside choices o
  closeGroup number p
  return .group (some number) p

/-- Reads an assertion on what follows. -/
def readAhead (choices : SequenceReader) (o : PatternOptions) (wanted : Bool) : Reader Pattern :=
  return .ahead wanted (← readInside choices o)

/-- Reads an assertion on what stands before. -/
def readBehind (choices : SequenceReader) (o : PatternOptions) (wanted : Bool) :
    Reader Pattern := do
  let outer := (← get).behind
  modify fun r => { r with behind := some (outer.getD r.groups.length) }
  let p ← choices o
  modify fun r => { r with behind := outer }
  expect ')'
  return .behind wanted p

/-- Reads a condition on a group, with one branch or two. -/
def readGiven (branch : SequenceReader) (o : PatternOptions) : Reader Pattern := do
  let number ← conditionNumber (← takeUntil ')')
  let matched ← branch o
  let unmatched ← if ← tryChar '|' then branch o else pure .empty
  expect ')'
  return .given number matched unmatched

/-- Reads a group with options of its own. -/
def readScoped (choices : SequenceReader) (o : PatternOptions) (first : Char) :
    Reader Pattern := do
  let (change, global) ← readOptions first
  refuseIf global
  return .group none (← readInside choices (change.apply o))

/-- Reads a group with a name. -/
def readNamed (choices : SequenceReader) (o : PatternOptions) : Reader Pattern := do
  let name ← takeUntil '>'
  refuseIf (!isName name)
  readGroup choices o (some name)

/-- Reads what the group with a name matched. -/
def readNamedReference (o : PatternOptions) : Reader Pattern := do
  expect '='
  let name ← takeUntil ')'
  refuseIf (!isName name)
  reference o (← numberNamed name)

/-- Reads what opens with a parenthesis and a question mark, a comment apart. -/
def readExtension (choices branch : SequenceReader) (o : PatternOptions) (c : Char) :
    Reader Pattern := do
  match c with
  | 'P' => if ← tryChar '<' then readNamed choices o else readNamedReference o
  | ':' => readInside choices o
  | '>' => return .atomic (← readInside choices o)
  | '=' => readAhead choices o true
  | '!' => readAhead choices o false
  | '<' =>
    if ← tryChar '=' then readBehind choices o true
    else
      expect '!'
      readBehind choices o false
  | '(' => readGiven branch o
  | _ => if isOption c || c = '-' then readScoped choices o c else unreadable

/-- Reads a backslash and what belongs to it. -/
def readEscaped (o : PatternOptions) (items : Items) (c : Char) : Reader Items := do
  match mark? c with
  | some m => return items.add (.mark o m) .mark
  | none =>
    match class? c with
    | some test => return items.add (.char o test) .other
    | none =>
      if c = '0' then
        return items.add (.char o (.char (← octal (c :: (← takeWhile isOctal 2))))) .other
      else if c.isDigit then return items.add (← readReference o c) .other
      else return items.add (.char o (.char (← readEscape c))) .other

/-- Reads what stands behind the sign of a repetition. -/
def readKind : Reader RepetitionKind := do
  if ← tryChar '?' then return .lazy
  if ← tryChar '+' then return .possessive
  return .greedy

/-- Reads a repetition of the last part. -/
def readRepetition (o : PatternOptions) (items : Items) (sign : Char) : Reader Items := do
  match ← readBounds sign with
  | none => return items.add (.char o (.char sign.toNat)) .other
  | some (least, most) =>
    match items.kind with
    | .nothing | .mark | .repetition => unreadable
    | .other =>
      let kind ← readKind
      return { items with last := .repeated kind least most items.last, kind := .repetition }

/-- Reads a class behind its opening bracket. -/
def readBrackets (o : PatternOptions) : Reader Pattern := do
  let negated ← tryChar '^'
  let items ← readClass ((← get).rest.length + 1) []
  return .char o (if negated then .none (.oneOf items) else .oneOf items)

/-- Reads a part that opens with a parenthesis. -/
def readParenthesis (choices branch : SequenceReader) (o : PatternOptions) (items : Items) :
    Reader Items := do
  if ← tryChar '?' then
    match ← next with
    | .plain '#' =>
      skipComment ((← get).rest.length + 1)
      return items
    | .plain c => return items.add (← readExtension choices branch o c) .other
    | _ => unreadable
  else return items.add (← readGroup choices o none) .other

/-- Reads a part that begins with the given character. -/
def readItem (choices branch : SequenceReader) (o : PatternOptions) (items : Items) (c : Char) :
    Reader Items := do
  match c with
  | '(' => readParenthesis choices branch o items
  | '[' => return items.add (← readBrackets o) .other
  | '.' => return items.add (.char o .point) .other
  | '^' => return items.add (.mark o .start) .mark
  | '$' => return items.add (.mark o .stop) .mark
  | '*' | '+' | '?' | '\x7b' => readRepetition o items c
  | _ => return items.add (.char o (.char c.toNat)) .other

/-- Reads the parts of a sequence one after another. -/
def readItems (choices branch : SequenceReader) (o : PatternOptions) :
    (fuel : Nat) → (items : Items) → Reader Pattern
  | 0, _ => unreadable
  | fuel + 1, items => do
    match ← peek with
    | none | some (.plain '|') | some (.plain ')') => return items.pattern
    | some .dangling => unreadable
    | some (.escaped c) =>
      skip
      readItems choices branch o fuel (← readEscaped o items c)
    | some (.plain c) =>
      skip
      if o.verbose && isFiller c then readItems choices branch o fuel items
      else if o.verbose && c = '#' then
        skipLine (← get).rest.length
        readItems choices branch o fuel items
      else readItems choices branch o fuel (← readItem choices branch o items c)

/-- The reader of choices of sequences. -/
def choiceReader (sequence : SequenceReader) : SequenceReader := fun o => do
  readChoices sequence o ((← get).rest.length + 1)

/-- The reader of sequences when so many calls can be made: one for the sequence, one for choices in
parentheses, and then those for the sequences among them. -/
def sequenceReader : (calls : Nat) → SequenceReader
  | 0 => fun _ => throw .tooDeep
  | calls + 1 => fun o => do
    let choices : SequenceReader := match calls with
      | 0 => fun _ => throw .tooDeep
      | left + 1 => choiceReader (sequenceReader left)
    readItems choices (sequenceReader calls) o ((← get).rest.length + 1) .empty

/-! ## Preparing -/

/-- How many calls within calls prepare a pattern. The choices after the first one are prepared
beside it. -/
def calls : Pattern → Nat
  | empty | char _ _ | mark _ _ | again _ _ _ => 0
  | seq p q => max p.calls q.calls
  | choice p (choice q r) => max (p.calls + 1) (choice q r).calls
  | choice p q | given _ p q => max p.calls q.calls + 1
  | group _ p | atomic p | ahead _ p | behind _ p | repeated _ _ _ p => p.calls + 1

/-- What must stand before a place has one width throughout. -/
def hasFixedWidths : Pattern → Bool
  | empty | char _ _ | mark _ _ | again _ _ _ => true
  | seq p q | choice p q | given _ p q => p.hasFixedWidths && q.hasFixedWidths
  | group _ p | atomic p | ahead _ p | repeated _ _ _ p => p.hasFixedWidths
  | behind _ p => p.width.1 == p.width.2 && p.width.1 ≤ repetitionLimit && p.hasFixedWidths

/-- A part of the pattern is repeated. -/
def repeats : Pattern → Bool
  | empty | char _ _ | mark _ _ | again _ _ _ => false
  | seq p q | choice p q | given _ p q => p.repeats || q.repeats
  | group _ p | atomic p | ahead _ p | behind _ p => p.repeats
  | repeated _ _ _ _ => true

/-! ## Whole patterns -/

/-- The letters of the options for the whole pattern, behind the ones given, and leaves them with
the comments and fillers between them. -/
def readGlobal : (fuel : Nat) → (on : List Char) → Reader (List Char)
  | 0, on => return on
  | fuel + 1, on => do
    let here ← get
    match here.rest with
    | .plain '(' :: .plain '?' :: .plain c :: _ =>
      skip
      skip
      skip
      if c = '#' then
        skipComment ((← get).rest.length + 1)
        readGlobal fuel on
      else if isOption c || c = '-' then
        let (change, global) ← readOptions c
        if global then readGlobal fuel (on ++ change.on)
        else
          set here
          return on
      else
        set here
        return on
    | .plain c :: _ =>
      if on.contains 'x' && isFiller c then
        skip
        readGlobal fuel on
      else if on.contains 'x' && c = '#' then
        skipLine here.rest.length
        readGlobal fuel on
      else return on
    | _ => return on

/-- A pattern that was read. -/
structure Prepared where
  /-- The pattern. -/
  pattern : Pattern
  /-- How many groups it has. -/
  groups : Nat

/-- Reads the whole of a pattern, with the letters of its options. -/
def readWhole : Reader (Pattern × List Char) := do
  refuseIf ((← peek) = some .dangling)
  let on ← readGlobal (← get).rest.length []
  let o := OptionChange.apply ⟨on, []⟩ ⟨false, false, false, false, false⟩
  let p ← choiceReader (sequenceReader (callLimit - 1)) o
  let r ← get
  refuseIf (!r.rest.isEmpty || r.groups.length < r.asked || (on.contains 'a' && on.contains 'u'))
  return (p, on)

/-- Reads a pattern and prepares it. -/
def ofText (s : String) : Except Fault Prepared := do
  let ((p, on), r) ← readWhole ⟨tokens s.toList, [], [], none, 0⟩
  if callLimit ≤ p.calls then .error .tooDeep
  else if !p.hasFixedWidths || (on.contains 't' && p.repeats) then .error .unreadable
  else return ⟨p, r.groups.length⟩

/-- A pattern matches somewhere in a text. -/
def search (pattern text : String) : Except Defect Bool :=
  match ofText pattern with
  | .ok p => .ok (p.pattern.occursIn p.groups text)
  | .error fault => .error fault.defect

end Warden.Pattern
