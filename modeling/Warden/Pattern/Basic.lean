import Warden.Text.Blank
import Warden.Text.Digit
import Warden.Text.Lowercase
import Warden.Text.Word

/-! # Regular patterns

A **`Pattern`** describes texts by characters, sequence, choice and repetition, by marks that hold
at a place without taking a character, and by what groups of it matched before. It is matched by
trying its ways in order and going back where a way fails: **`Pattern.run`** looks for the first way
to match from a place on after which what follows can go on too. An atomic part and an assertion are
matched on their own, so only their first way counts. **`Pattern.occursIn`** asks for a match
anywhere. -/

namespace Warden

/-! ## Characters -/

/-- How a part of a pattern is read and matched. -/
structure PatternOptions where
  /-- Capital and small letters are not told apart. -/
  anyCase : Bool
  /-- The marks for start and end also hold at line breaks. -/
  lines : Bool
  /-- The point also stands for line breaks. -/
  dotAll : Bool
  /-- Classes and letters are those of ASCII. -/
  ascii : Bool
  /-- Blanks and comments between the parts of the pattern are left out. -/
  verbose : Bool

/-- A property of single characters. -/
inductive CharTest where
  /-- The character with this code. -/
  | char (code : Nat)
  /-- The characters with codes from the first to the last. -/
  | range (first last : Nat)
  /-- A decimal digit. -/
  | digit
  /-- A blank. -/
  | blank
  /-- A letter, a numeral or the underscore. -/
  | word
  /-- Any character, or any but the line break. -/
  | point
  /-- One of the properties. -/
  | oneOf (tests : List CharTest)
  /-- Not the property. -/
  | none (test : CharTest)

namespace CharTest

/-- The character is a decimal digit. -/
def isDigit (o : PatternOptions) (c : Char) : Bool :=
  if o.ascii then c.isDigit else Text.isDigit c

/-- The character is a blank. -/
def isBlank (o : PatternOptions) (c : Char) : Bool :=
  if o.ascii then c == ' ' || ('\t' ≤ c && c ≤ '\r') else Text.isBlank c

/-- The character is a letter, a numeral or the underscore. -/
def isWord (o : PatternOptions) (c : Char) : Bool :=
  if o.ascii then c.isAlphanum || c == '_' else Text.isWord c

/-- The characters that a character stands for. -/
def variants (o : PatternOptions) (c : Char) : List Char :=
  if !o.anyCase then [c]
  else if o.ascii then [c.toLower, c.toUpper]
  else Text.lettersLike (Text.plainLetter c)

/-- The two characters count as the same. -/
def same (o : PatternOptions) (a b : Char) : Bool :=
  if !o.anyCase then a == b
  else if o.ascii then a.toLower == b.toLower
  else Text.sameLetter a b

/-- The two characters have the same small letter. What a group matched is compared this way. -/
def alike (o : PatternOptions) (a b : Char) : Bool :=
  if !o.anyCase then a == b
  else if o.ascii then a.toLower == b.toLower
  else Text.plainLetter a == Text.plainLetter b

mutual

/-- The character has the property. -/
def accepts (o : PatternOptions) (c : Char) : CharTest → Bool
  | .char code => code.isValidChar && same o (Char.ofNat code) c
  | .range first last => (variants o c).any fun l => first ≤ l.toNat && l.toNat ≤ last
  | .digit => isDigit o c
  | .blank => isBlank o c
  | .word => isWord o c
  | .point => o.dotAll || c != '\n'
  | .oneOf tests => acceptsOne o c tests
  | .none test => !accepts o c test

/-- The character has one of the properties. -/
def acceptsOne (o : PatternOptions) (c : Char) : List CharTest → Bool
  | [] => false
  | t :: ts => accepts o c t || acceptsOne o c ts

end

end CharTest

/-! ## Patterns -/

/-- What can hold at a place. -/
inductive PlaceMark where
  /-- The start of the text or of a line. -/
  | start
  /-- The end of the text or of a line, or the place before a line break at the end. -/
  | stop
  /-- The start of the text. -/
  | veryStart
  /-- The end of the text. -/
  | veryEnd
  /-- The border of a word, or any other place of a text. -/
  | border (isBorder : Bool)
deriving DecidableEq

/-- How a repetition goes on. -/
inductive RepetitionKind where
  /-- As often as possible, less often where that fails. -/
  | greedy
  /-- As seldom as possible, more often where that fails. -/
  | lazy
  /-- As often as possible, each time in the first way. -/
  | possessive
deriving DecidableEq

/-- A regular pattern. -/
inductive Pattern where
  /-- Nothing. -/
  | empty
  /-- One character with the property. -/
  | char (o : PatternOptions) (test : CharTest)
  /-- What holds at the place. -/
  | mark (o : PatternOptions) (m : PlaceMark)
  /-- One after the other. -/
  | seq (first second : Pattern)
  /-- One or the other. -/
  | choice (first second : Pattern)
  /-- A part whose match is remembered under the number, if it has one. -/
  | group (number : Option Nat) (p : Pattern)
  /-- A part of which only the first way to match counts. -/
  | atomic (p : Pattern)
  /-- What must, or must not, match from the place on. -/
  | ahead (wanted : Bool) (p : Pattern)
  /-- What must, or must not, match so many characters before the place. -/
  | behind (wanted : Bool) (p : Pattern)
  /-- What the group matched, which has a least and a greatest width. -/
  | again (o : PatternOptions) (number : Nat) (width : Nat × Nat)
  /-- One pattern if the group has matched and another if not. -/
  | given (number : Nat) (matched unmatched : Pattern)
  /-- Again and again, at least and at most so often. -/
  | repeated (kind : RepetitionKind) (least : Nat) (most : Option Nat) (p : Pattern)

namespace Pattern

/-! ## Width -/

/-- The greatest width that is told apart. -/
def widthLimit : Nat := 0x10000000000000000

/-- How many characters a match has at least and at most. -/
def width : Pattern → Nat × Nat
  | empty | mark _ _ | ahead _ _ | behind _ _ => (0, 0)
  | char _ _ => (1, 1)
  | seq p q =>
    (min (p.width.1 + q.width.1) widthLimit, min (p.width.2 + q.width.2) widthLimit)
  | choice p q => (min p.width.1 q.width.1, max p.width.2 q.width.2)
  | group _ p | atomic p => p.width
  | again _ _ w => w
  | given _ p q => (min p.width.1 q.width.1, max p.width.2 q.width.2)
  | repeated _ least most p =>
    (min (p.width.1 * least) widthLimit,
      match most with
      | some n => min (p.width.2 * n) widthLimit
      | none => if p.width.2 = 0 then 0 else widthLimit)

/-! ## Matching -/

/-- A place in a text, and what was matched on the way to it. -/
structure Place where
  /-- The characters before it, the last one first. -/
  before : List Char
  /-- The characters behind it. -/
  rest : List Char
  /-- Where each group was entered and left last. -/
  marks : List (Option Nat)
deriving DecidableEq

namespace Place

/-- How far the place is from the start. -/
def index (p : Place) : Nat :=
  p.before.length

/-- The place is marked. -/
def marked (p : Place) (i : Nat) : Place :=
  { p with marks := p.marks.set i (some p.index) }

/-- The place so many characters before. -/
def back? (p : Place) (n : Nat) : Option Place :=
  if p.before.length < n then none
  else
    some { p with before := p.before.drop n, rest := (p.before.take n).reverse ++ p.rest }

/-- The characters between the marks of a group, if it was entered and left. -/
def taken? (p : Place) (number : Nat) : Option (List Char) :=
  match p.marks[2 * number - 2]?.join, p.marks[2 * number - 1]?.join with
  | some start, some stop =>
    if stop < start then none
    else some (((p.before.reverse ++ p.rest).drop start).take (stop - start))
  | _, _ => none

/-- The place behind the characters, if they stand there. -/
def pass? (same : Char → Char → Bool) (p : Place) : List Char → Option Place
  | [] => some p
  | c :: cs =>
    match p.rest with
    | d :: ds =>
      if same c d then pass? same { p with before := d :: p.before, rest := ds } cs else none
    | [] => none

/-- A word character stands there. -/
def isWordAt (o : PatternOptions) : Option Char → Bool
  | some c => CharTest.isWord o c
  | none => false

/-- The mark holds at the place. In an empty text no place is inside a word or outside. -/
def holds (o : PatternOptions) (p : Place) : PlaceMark → Bool
  | .start => p.before.isEmpty || (o.lines && p.before.head? == some '\n')
  | .stop => p.rest.isEmpty || p.rest == ['\n'] || (o.lines && p.rest.head? == some '\n')
  | .veryStart => p.before.isEmpty
  | .veryEnd => p.rest.isEmpty
  | .border isBorder =>
    !(p.before.isEmpty && p.rest.isEmpty) &&
      (isWordAt o p.before.head? != isWordAt o p.rest.head?) == isBorder

end Place

/-- A way of going on from places, and looking for one that leads to the end. -/
abbrev Step := Place → (Place → Option Place) → Option Place

/-- The step so many times. -/
def exactly (step : Step) : Nat → Step
  | 0, p, next => next p
  | n + 1, p, next => step p fun q => exactly step n q next

/-- The step at most so many times. After a turn that took nothing there is no other one; `last` is
where the turn before began. -/
def atMost (step : Step) (lazy : Bool) : (turns : Nat) → (last : Option Nat) → Step
  | 0, _, p, next => next p
  | n + 1, last, p, next =>
    if last = some p.index then next p
    else if lazy then
      next p <|> step p fun q => atMost step lazy n (some p.index) q next
    else
      (step p fun q => atMost step lazy n (some p.index) q next) <|> next p

/-- The step so many times, each time in its first way. -/
def firstExactly (step : Step) : Nat → Place → Option Place
  | 0, p => some p
  | n + 1, p => (step p some).bind (firstExactly step n)

/-- The step at most so many times, each time in its first way. -/
def firstAtMost (step : Step) : (turns : Nat) → Place → Place
  | 0, p => p
  | n + 1, p =>
    match step p some with
    | some q => if q.index = p.index then q else firstAtMost step n q
    | none => p

/-- How many more turns a repetition can take that moves in each but the last of them. -/
def turnsLeft (least : Nat) (most : Option Nat) (p : Place) : Nat :=
  match most with
  | some n => min (n - least) (p.rest.length + 1)
  | none => p.rest.length + 1

/-- The first way to match from a place on after which what follows can go on. -/
def run : Pattern → Step
  | empty, p, next => next p
  | char o test, p, next =>
    match p.rest with
    | c :: cs =>
      if test.accepts o c then next { p with before := c :: p.before, rest := cs } else none
    | [] => none
  | mark o m, p, next => if p.holds o m then next p else none
  | seq a b, p, next => run a p fun q => run b q next
  | choice a b, p, next => run a p next <|> run b p next
  | group number a, p, next =>
    match number with
    | some n => run a (p.marked (2 * n - 2)) fun q => next (q.marked (2 * n - 1))
    | none => run a p next
  | atomic a, p, next => (run a p some).bind next
  | ahead wanted a, p, next =>
    match run a p some with
    | some q => if wanted then next { p with marks := q.marks } else none
    | none => if wanted then none else next p
  | behind wanted a, p, next =>
    match (p.back? a.width.1).bind fun q => run a q some with
    | some q => if wanted then next { p with marks := q.marks } else none
    | none => if wanted then none else next p
  | again o number _, p, next =>
    ((p.taken? number).bind (p.pass? (CharTest.alike o))).bind next
  | given number a b, p, next => if (p.taken? number).isSome then run a p next else run b p next
  | repeated kind least most a, p, next =>
    match kind with
    | .greedy =>
      exactly (run a) least p fun q => atMost (run a) false (turnsLeft least most q) none q next
    | .lazy =>
      exactly (run a) least p fun q => atMost (run a) true (turnsLeft least most q) none q next
    | .possessive =>
      (firstExactly (run a) least p).bind fun q =>
        next (firstAtMost (run a) (turnsLeft least most q) q)

/-- A match starts at the place or after it. -/
def occursFrom (q : Pattern) (marks : List (Option Nat)) : (before rest : List Char) → Bool
  | before, [] => (run q ⟨before, [], marks⟩ some).isSome
  | before, c :: cs =>
    (run q ⟨before, c :: cs, marks⟩ some).isSome || occursFrom q marks (c :: before) cs

/-- The pattern, which has so many groups, matches somewhere in the text. -/
def occursIn (q : Pattern) (groups : Nat) (s : String) : Bool :=
  occursFrom q (List.replicate (2 * groups) none) [] s.toList

end Pattern

end Warden
