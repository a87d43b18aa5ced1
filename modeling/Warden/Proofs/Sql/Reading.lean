import Mathlib.Data.List.Forall2
import Mathlib.Logic.Function.Iterate
import Warden.Proofs.Sql.Lexing

/-! # Reading conditions

**`readMembers`** reads a text as a condition and gives the parts that it says must all hold. The
words bind as the language has it: OR less than AND, AND less than NOT, NOT less than comparisons,
and the AND behind a BETWEEN belongs to its bounds. Parentheses group; EXISTS asks for a row, and
what stands behind the WHERE of its query is a condition again.

The reader goes through the tokens once and keeps a **`Level`** for every group that is open. What a
condition does to the level it stands in (**`Forms`**) does not depend on what the level holds, so
readings of texts can be put together as the texts are. -/

namespace Warden.Sql

/-! ## Readings -/

/-- What a text says as a condition. -/
inductive Reading where
  /-- A comparison, or another test without parts that are conditions. -/
  | comparison (ts : List Token)
  /-- It must not hold. -/
  | neg (r : Reading)
  /-- All must hold. -/
  | conj (rs : List Reading)
  /-- One must hold. -/
  | disj (rs : List Reading)
  /-- There is a row of the query, up to its WHERE, for which it holds. -/
  | exist (query : List Token) (r : Reading)

namespace Reading

/-- All of the readings; a single one stands for itself. -/
def conjoined : List Reading → Reading
  | [r] => r
  | rs => .conj rs

/-- One of the readings; a single one stands for itself. -/
def disjoined : List Reading → Reading
  | [r] => r
  | rs => .disj rs

theorem conjoined_of_length {rs : List Reading} (h : 2 ≤ rs.length) : conjoined rs = .conj rs := by
  match rs with
  | [] | [r] => simp at h
  | r :: s :: rs => rfl

theorem disjoined_of_length {rs : List Reading} (h : 2 ≤ rs.length) : disjoined rs = .disj rs := by
  match rs with
  | [] | [r] => simp at h
  | r :: s :: rs => rfl

end Reading

/-- A part of an operand. -/
inductive Item where
  /-- A token. -/
  | token (t : Token)
  /-- A group in parentheses, with the query that its condition is about, if it is about one. -/
  | group (query : Option (List Token)) (r : Reading)

/-- The token can stand in a comparison. -/
def Token.isComparing : Token → Bool
  | .existsWord | .selectWord | .whereWord | .clauseWord => false
  | _ => true

/-- The tokens of a part, if it is a part of a comparison. -/
def Item.tokens? : Item → Option (List Token)
  | .token t => if t.isComparing then some [t] else none
  | .group none (.comparison ts) => some (.opening :: (ts ++ [.closing]))
  | .group _ _ => none

/-- The tokens of the parts of a comparison. -/
def tokensOf : List Item → Option (List Token)
  | [] => some []
  | item :: items => do
    let ts ← item.tokens?
    return ts ++ (← tokensOf items)

/-- What an operand of the connectives says. -/
def operandReading : List Item → Option Reading
  | [] => none
  | [.group none r] => some r
  | [.token .existsWord, .group (some query) r] => some (.exist query r)
  | items => (tokensOf items).map .comparison

/-! ## The reader -/

/-- What has been read of a group that is open, or of the whole text. -/
structure Level where
  /-- The query that the condition is about. -/
  query : Option (List Token) := none
  /-- The alternatives that are finished. -/
  disjuncts : List Reading := []
  /-- The members of the present alternative that are finished. -/
  conjuncts : List Reading := []
  /-- How often the present member is negated. -/
  negations : Nat := 0
  /-- The operand of the present member, as far as it has been read. -/
  operand : List Item := []
  /-- A BETWEEN in it has no AND yet. -/
  between : Bool := false

namespace Level

/-- The level with more of its operand. -/
def extend (l : Level) (items : List Item) : Level :=
  { l with operand := l.operand ++ items }

/-- The members of the present alternative, if the last one ends here. -/
def members (l : Level) : Option (List Reading) :=
  if l.between then none
  else (operandReading l.operand).map fun r => l.conjuncts ++ [Reading.neg^[l.negations] r]

/-- What the level says, if it ends here. -/
def result (l : Level) : Option Reading :=
  l.members.map fun rs => .disjoined (l.disjuncts ++ [.conjoined rs])

/-- The level behind an AND. -/
def andNext (l : Level) : Option Level :=
  if l.between then some { l.extend [.token .andWord] with between := false }
  else l.members.map fun rs => { l with conjuncts := rs, negations := 0, operand := [] }

/-- The level behind an OR. -/
def orNext (l : Level) : Option Level :=
  l.members.map fun rs =>
    { l with
      disjuncts := l.disjuncts ++ [.conjoined rs], conjuncts := [], negations := 0, operand := [] }

/-- The level behind a NOT, which stands before an operand or inside one. -/
def notNext (l : Level) : Level :=
  if l.operand.isEmpty then { l with negations := l.negations + 1 } else l.extend [.token .notWord]

/-- The level behind a BETWEEN. -/
def betweenNext (l : Level) : Option Level :=
  if l.between then none else some { l.extend [.token .betweenWord] with between := true }

/-- The level behind a WHERE, before which there is nothing but the query. -/
def whereNext (l : Level) : Option Level :=
  match l with
  | ⟨none, [], [], 0, .token .selectWord :: items, false⟩ =>
    (tokensOf items).map fun ts => { query := some (.selectWord :: ts) }
  | _ => none

/-- The levels behind a closing parenthesis: the group is a part of the operand outside it. -/
def close (l : Level) : List Level → Option (List Level)
  | [] => none
  | outer :: ls => l.result.map fun r => outer.extend [.group l.query r] :: ls

/-- The levels behind a token, the innermost first. -/
def step : List Level → Token → Option (List Level)
  | [], _ => none
  | l :: ls, t =>
    match t with
    | .opening => some ({} :: l :: ls)
    | .closing => l.close ls
    | .andWord => l.andNext.map (· :: ls)
    | .orWord => l.orNext.map (· :: ls)
    | .notWord => some (l.notNext :: ls)
    | .betweenWord => l.betweenNext.map (· :: ls)
    | .whereWord => l.whereNext.map (· :: ls)
    | t => some (l.extend [.token t] :: ls)

/-- The levels behind several tokens. -/
def run (ls : List Level) (ts : List Token) : Option (List Level) :=
  ts.foldlM step ls

/-- The members of a text that ends at the level, unless it has alternatives. -/
def whole (l : Level) : Option (List Reading) :=
  if l.query.isNone && l.disjuncts.isEmpty then l.members else none

end Level

/-- The parts of a text that must all hold. -/
def readMembers (s : String) : Option (List Reading) := do
  let ts ← lex s
  let [l] ← Level.run [{}] ts | none
  l.whole

/-! ## What is read at all -/

/-- How many groups are open behind the tokens, from `n` open ones on: none if a parenthesis closes
no group. -/
def depth : Nat → List Token → Option Nat
  | n, [] => some n
  | n, .opening :: ts => depth (n + 1) ts
  | 0, .closing :: _ => none
  | n + 1, .closing :: ts => depth n ts
  | n, _ :: ts => depth n ts

/-- The parentheses pair up, there is something in each pair, and no OR stands outside of them. -/
structure Grouped (ts : List Token) : Prop where
  /-- Every group that is opened is closed, and no other. -/
  balanced : depth 0 ts = some 0
  /-- No group is closed where it was opened. -/
  filled : ¬ [.opening, .closing] <:+: ts
  /-- Where an OR stands, a group is open. -/
  inside : ∀ before after, ts = before ++ .orWord :: after → ∃ n, depth 0 before = some (n + 1)

namespace Level

variable {l l' : Level} {ls next : List Level} {t : Token} {ts us : List Token}

theorem run_append (ls : List Level) (ts us : List Token) :
    run ls (ts ++ us) = (run ls ts).bind fun next => run next us :=
  List.foldlM_append

theorem run_cons (ls : List Level) (t : Token) (ts : List Token) :
    run ls (t :: ts) = (step ls t).bind fun next => run next ts :=
  List.foldlM_cons

/-- The outermost level has a finished alternative. -/
def HasAlternative : List Level → Prop
  | [] => False
  | [l] => l.disjuncts ≠ []
  | _ :: ls => HasAlternative ls

theorem HasAlternative.replace (hl : l.disjuncts ≠ [] → l'.disjuncts ≠ [])
    (h : HasAlternative (l :: ls)) : HasAlternative (l' :: ls) := by
  cases ls with
  | nil => exact hl h
  | cons outer ls => exact h

/-- What a token does: it opens a group, closes the innermost one, or changes the innermost level,
which keeps its alternatives. -/
theorem step_cases (h : step (l :: ls) t = some next) :
    (t = .opening ∧ next = {} :: l :: ls) ∨
    (t = .closing ∧ ∃ r outer rest, l.result = some r ∧ ls = outer :: rest ∧
      next = outer.extend [.group l.query r] :: rest) ∨
    (t ≠ .opening ∧ t ≠ .closing ∧ ∃ l', next = l' :: ls ∧
      (l.disjuncts ≠ [] ∨ t = .orWord → l'.disjuncts ≠ [])) := by
  cases t with
  | opening => exact .inl ⟨rfl, (Option.some.inj h).symm⟩
  | closing =>
      refine .inr (.inl ⟨rfl, ?_⟩)
      cases ls with
      | nil => cases h
      | cons outer rest =>
          obtain ⟨r, hr, hnext⟩ := Option.map_eq_some_iff.1 h
          exact ⟨r, outer, rest, hr, rfl, hnext.symm⟩
  | andWord =>
      obtain ⟨l', hl', rfl⟩ := Option.map_eq_some_iff.1 h
      refine .inr (.inr ⟨by simp, by simp, l', rfl, ?_⟩)
      unfold andNext at hl'
      split at hl'
      · cases hl'
        simp [extend]
      · obtain ⟨rs, -, rfl⟩ := Option.map_eq_some_iff.1 hl'
        simp
  | orWord =>
      obtain ⟨l', hl', rfl⟩ := Option.map_eq_some_iff.1 h
      obtain ⟨rs, -, rfl⟩ := Option.map_eq_some_iff.1 hl'
      exact .inr (.inr ⟨by simp, by simp, _, rfl, by simp⟩)
  | notWord =>
      refine .inr (.inr ⟨by simp, by simp, _, (Option.some.inj h).symm, ?_⟩)
      unfold notNext
      split <;> simp [extend]
  | betweenWord =>
      obtain ⟨l', hl', rfl⟩ := Option.map_eq_some_iff.1 h
      refine .inr (.inr ⟨by simp, by simp, l', rfl, ?_⟩)
      unfold betweenNext at hl'
      split at hl'
      · cases hl'
      · cases hl'
        simp [extend]
  | whereWord =>
      obtain ⟨l', hl', rfl⟩ := Option.map_eq_some_iff.1 h
      refine .inr (.inr ⟨by simp, by simp, l', rfl, ?_⟩)
      -- a WHERE is not taken behind an alternative
      unfold whereNext at hl'
      split at hl'
      · simp
      · cases hl'
  | _ =>
      refine .inr (.inr ⟨by simp, by simp, _, (Option.some.inj h).symm, ?_⟩)
      simp [extend]

theorem depth_cons {n : Nat} (hopening : t ≠ .opening) (hclosing : t ≠ .closing) :
    depth n (t :: ts) = depth n ts := by
  cases t with
  | opening => exact absurd rfl hopening
  | closing => exact absurd rfl hclosing
  | _ => cases n <;> rfl

/-- The open groups are the levels but the outermost. -/
theorem depth_of_run (h : run (l :: ls) ts = some next) :
    ∃ l' ls', next = l' :: ls' ∧ depth ls.length ts = some ls'.length := by
  induction ts generalizing l ls with
  | nil => exact ⟨l, ls, (Option.some.inj h).symm, rfl⟩
  | cons t ts ih =>
      rw [run_cons] at h
      obtain ⟨middle, hstep, h⟩ := Option.bind_eq_some_iff.1 h
      obtain ⟨rfl, rfl⟩ | ⟨rfl, r, outer, rest, -, rfl, rfl⟩ | ⟨hopening, hclosing, l', rfl, -⟩ :=
        step_cases hstep
      · exact ih h
      · exact ih h
      · rw [depth_cons hopening hclosing]
        exact ih h

theorem hasAlternative_of_run (hls : HasAlternative (l :: ls)) (h : run (l :: ls) ts = some next) :
    HasAlternative next := by
  induction ts generalizing l ls with
  | nil =>
      cases h
      exact hls
  | cons t ts ih =>
      rw [run_cons] at h
      obtain ⟨middle, hstep, h⟩ := Option.bind_eq_some_iff.1 h
      obtain ⟨rfl, rfl⟩ | ⟨rfl, r, outer, rest, -, rfl, rfl⟩ | ⟨-, -, l', rfl, hl'⟩ :=
        step_cases hstep
      · have hopened : HasAlternative ({} :: l :: ls) := hls
        exact ih hopened h
      · refine ih ?_ h
        exact HasAlternative.replace (l := outer) id hls
      · exact ih (hls.replace fun hl => hl' (.inl hl)) h

/-- **What the reader takes is grouped.** -/
theorem grouped_of_run (h : run [{}] ts = some [l]) (hl : l.disjuncts = []) : Grouped ts := by
  refine ⟨?_, ?_, ?_⟩
  · obtain ⟨l', ls', hnext, hdepth⟩ := depth_of_run h
    cases hnext
    exact hdepth
  · rintro ⟨before, after, rfl⟩
    rw [run_append, run_append] at h
    obtain ⟨next, hnext, -⟩ := Option.bind_eq_some_iff.1 h
    obtain ⟨middle, hmiddle, hgroup⟩ := Option.bind_eq_some_iff.1 hnext
    obtain ⟨l', ls', rfl, -⟩ := depth_of_run hmiddle
    -- a fresh level has no operand, so it says nothing yet
    have hempty : ({} : Level).result = none := rfl
    rw [run_cons, step, Option.bind_some, run_cons, step, close, hempty] at hgroup
    cases hgroup
  · rintro before after rfl
    rw [run_append] at h
    obtain ⟨middle, hmiddle, h⟩ := Option.bind_eq_some_iff.1 h
    obtain ⟨l', ls', rfl, hbefore⟩ := depth_of_run hmiddle
    rw [run_cons] at h
    obtain ⟨next, hstep, h⟩ := Option.bind_eq_some_iff.1 h
    obtain ⟨hor, -⟩ | ⟨hor, -⟩ | ⟨-, -, l'', rfl, hl''⟩ := step_cases hstep
    · cases hor
    · cases hor
    · cases ls' with
      | nil =>
          -- the alternative would still be there at the end
          have hlast : HasAlternative [l''] := hl'' (.inr rfl)
          exact absurd hl (hasAlternative_of_run hlast h)
      | cons outer rest => exact ⟨rest.length, hbefore⟩

/-! ## Operands -/

@[simp] theorem extend_nil (l : Level) : l.extend [] = l := by
  simp [extend]

@[simp] theorem extend_extend (l : Level) (items more : List Item) :
    (l.extend items).extend more = l.extend (items ++ more) := by
  simp [extend]

end Level

theorem tokensOf_append {items more : List Item} {ts us : List Token}
    (h : tokensOf items = some ts) (h' : tokensOf more = some us) :
    tokensOf (items ++ more) = some (ts ++ us) := by
  induction items generalizing ts with
  | nil =>
      cases h
      exact h'
  | cons item items ih =>
      simp only [tokensOf, Option.bind_eq_bind, Option.bind_eq_some_iff, Option.pure_def,
        Option.some.injEq] at h
      obtain ⟨first, hfirst, rest, hrest, rfl⟩ := h
      simp [tokensOf, hfirst, ih hrest]

/-- Several parts that are parts of a comparison are a comparison. -/
theorem operandReading_of_tokensOf {items : List Item} {ts : List Token}
    (h : tokensOf items = some ts) (hlength : 2 ≤ items.length) :
    operandReading items = some (.comparison ts) := by
  -- the other two forms of an operand are a single part, or have a part of no comparison
  have hcomparison : operandReading items = (tokensOf items).map .comparison := by
    unfold operandReading
    split
    · simp at hlength
    · simp at hlength
    · cases h
    · rfl
  rw [hcomparison, h]
  rfl

open Level

/-- The tokens go into the operand as parts of a comparison, wherever they stand. -/
structure Inert (ts : List Token) (items : List Item) : Prop where
  /-- They extend the operand. -/
  run : ∀ l ls, run (l :: ls) ts = some (l.extend items :: ls)
  /-- They are parts of a comparison. -/
  tokens : tokensOf items = some ts

/-- The tokens go into the operand as parts of a comparison that has begun. -/
structure Continues (ts : List Token) (items : List Item) : Prop where
  /-- They extend the operand. -/
  run : ∀ l ls, l.operand ≠ [] → l.between = false → run (l :: ls) ts = some (l.extend items :: ls)
  /-- They are parts of a comparison. -/
  tokens : tokensOf items = some ts

/-- Anywhere in a condition the token is a part of an operand. -/
def Token.isPlain : Token → Bool
  | .word _ | .name _ | .literal _ | .mark _ | .placeholder => true
  | _ => false

variable {ts us : List Token} {items more : List Item}

theorem Inert.append (h : Inert ts items) (h' : Inert us more) :
    Inert (ts ++ us) (items ++ more) where
  run l ls := by rw [run_append, h.run, Option.bind_some, h'.run, extend_extend]
  tokens := tokensOf_append h.tokens h'.tokens

theorem inert_plain (h : ts.all Token.isPlain = true) : Inert ts (ts.map .token) := by
  induction ts with
  | nil => exact ⟨fun l ls => by rw [List.map_nil, extend_nil]; rfl, rfl⟩
  | cons t ts ih =>
      rw [List.all_cons, Bool.and_eq_true] at h
      obtain ⟨ht, hts⟩ := h
      have hfirst : Inert [t] [.token t] := by
        cases t with
        | word | name | literal | mark | placeholder => exact ⟨fun _ _ => rfl, rfl⟩
        | _ => cases ht
      exact hfirst.append (ih hts)

theorem Inert.continues (h : Inert ts items) : Continues ts items :=
  ⟨fun l ls _ _ => h.run l ls, h.tokens⟩

theorem Inert.append_continues (h : Inert ts items) (h' : Continues us more) :
    Continues (ts ++ us) (items ++ more) where
  run l ls hoperand hbetween := by
    rw [run_append, h.run, Option.bind_some, h'.run, extend_extend]
    · simp [extend, hoperand]
    · exact hbetween
  tokens := tokensOf_append h.tokens h'.tokens

/-- A NOT behind the beginning of a comparison is a part of it. -/
theorem Continues.not (h : Continues ts items) :
    Continues (.notWord :: ts) (.token .notWord :: items) where
  run l ls hoperand hbetween := by
    have hnot : l.notNext = l.extend [.token .notWord] := by
      simp [notNext, hoperand]
    rw [run_cons, step, Option.bind_some, hnot, h.run, extend_extend]
    · rfl
    · simp [extend]
    · exact hbetween
  tokens := by
    have hnot : tokensOf [.token .notWord] = some [.notWord] := rfl
    exact tokensOf_append hnot h.tokens

/-- The AND behind a BETWEEN is a part of the comparison. -/
theorem Inert.between (h : Inert ts items) (h' : Inert us more) :
    Continues (.betweenWord :: (ts ++ .andWord :: us))
      (.token .betweenWord :: (items ++ .token .andWord :: more)) where
  run l ls _ hbetween := by
    let opened : Level := { l.extend [.token .betweenWord] with between := true }
    have hopened : l.betweenNext = some opened := by
      rw [betweenNext, hbetween]
      rfl
    have hand : (opened.extend items).andNext =
        some (l.extend (.token .betweenWord :: (items ++ [.token .andWord]))) := by
      have hpending : (opened.extend items).between = true := rfl
      rw [andNext, if_pos hpending]
      simp [opened, extend, hbetween]
    rw [run_cons, step, hopened, Option.map_some, Option.bind_some, run_append, h.run,
      Option.bind_some, run_cons, step, hand, Option.map_some, Option.bind_some, h'.run,
      extend_extend]
    simp
  tokens := by
    have hbetween : tokensOf [.token .betweenWord] = some [.betweenWord] := rfl
    have hand : tokensOf [.token .andWord] = some [.andWord] := rfl
    exact tokensOf_append hbetween (tokensOf_append h.tokens (tokensOf_append hand h'.tokens))

/-! ## Conditions -/

/-- The next token begins an operand. -/
structure Level.Ready (l : Level) : Prop where
  /-- Nothing of it has been read. -/
  operand : l.operand = []
  /-- There is no BETWEEN in it. -/
  between : l.between = false

/-- From one level to the next there are more members in the present alternative, and nothing else
is finished. -/
structure Level.Gains (l l' : Level) (rs : List Reading) : Prop where
  /-- The query is the same. -/
  query : l'.query = l.query
  /-- The finished alternatives are the same. -/
  disjuncts : l'.disjuncts = l.disjuncts
  /-- If the alternative ends there, these are its new members. -/
  members : l'.members = some (l.conjuncts ++ rs)

/-- Where an operand may begin, the tokens are a condition with the reading. -/
def Forms (ts : List Token) (r : Reading) : Prop :=
  ∀ l ls, l.Ready → ∃ l', run (l :: ls) ts = some (l' :: ls) ∧
    l.Gains l' [Reading.neg^[l.negations] r]

/-- Between parentheses the tokens are a group with the reading, on the rows of a query or not. -/
def Yields (ts : List Token) (query : Option (List Token)) (r : Reading) : Prop :=
  ∀ ls, ∃ l, run ({} :: ls) ts = some (l :: ls) ∧ l.query = query ∧ l.result = some r

variable {l : Level} {ls : List Level} {r : Reading} {rs : List Reading}
  {tss : List (List Token)} {query : Option (List Token)}

theorem Level.Ready.gains (h : l.Ready) (hr : operandReading items = some r) :
    l.Gains (l.extend items) [Reading.neg^[l.negations] r] := by
  refine ⟨rfl, rfl, ?_⟩
  simp [members, extend, h.operand, h.between, hr]

/-- A level whose alternative can end has no BETWEEN without its AND. -/
theorem Level.between_of_members (h : l.members = some rs) : l.between = false := by
  unfold members at h
  split at h
  · cases h
  · next hbetween => simpa using hbetween

/-- A comparison begins with parts that may stand anywhere. -/
theorem Continues.forms (h : Inert ts items) (h' : Continues us more) (hitems : items ≠ [])
    (hlength : 2 ≤ (items ++ more).length) : Forms (ts ++ us) (.comparison (ts ++ us)) := by
  intro l ls hl
  have hreading := operandReading_of_tokensOf (tokensOf_append h.tokens h'.tokens) hlength
  refine ⟨l.extend (items ++ more), ?_, hl.gains hreading⟩
  rw [run_append, h.run, Option.bind_some, h'.run, extend_extend]
  · simpa [extend, hl.operand] using hitems
  · exact hl.between

theorem Inert.forms (h : Inert ts items) (hr : operandReading items = some r) : Forms ts r :=
  fun l ls hl => ⟨l.extend items, h.run l ls, hl.gains hr⟩

theorem Forms.not (h : Forms ts r) : Forms (.notWord :: ts) (.neg r) := by
  intro l ls hl
  have hnot : l.notNext = { l with negations := l.negations + 1 } := by
    simp [notNext, hl.operand]
  obtain ⟨l', hrun, hgains⟩ := h { l with negations := l.negations + 1 } ls ⟨hl.operand, hl.between⟩
  refine ⟨l', ?_, hgains.query, hgains.disjuncts, hgains.members⟩
  rw [run_cons, step, Option.bind_some, hnot]
  exact hrun

/-! ## Groups -/

theorem run_group (h : Yields ts query r) (l : Level) (ls : List Level) :
    run (l :: ls) (.opening :: (ts ++ [.closing])) = some (l.extend [.group query r] :: ls) := by
  obtain ⟨inner, hrun, rfl, hresult⟩ := h (l :: ls)
  rw [run_cons, step, Option.bind_some, run_append, hrun, Option.bind_some, run_cons, step, close,
    hresult]
  rfl

/-- A comparison in parentheses is a part of a comparison. -/
theorem Yields.inert (h : Yields ts none (.comparison ts)) :
    Inert (.opening :: (ts ++ [.closing])) [.group none (.comparison ts)] :=
  ⟨run_group h, by simp [tokensOf, Item.tokens?]⟩

/-- Parentheses around a condition leave it as it is. -/
theorem Yields.forms (h : Yields ts none r) : Forms (.opening :: (ts ++ [.closing])) r :=
  fun l ls hl => ⟨_, run_group h l ls, hl.gains rfl⟩

theorem Yields.exist {q : List Token} (h : Yields ts (some q) r) :
    Forms (.existsWord :: .opening :: (ts ++ [.closing])) (.exist q r) := by
  intro l ls hl
  refine ⟨l.extend [.token .existsWord, .group (some q) r], ?_, hl.gains rfl⟩
  have hexists : step (l :: ls) .existsWord = some (l.extend [.token .existsWord] :: ls) := rfl
  rw [run_cons, hexists, Option.bind_some, run_group h, extend_extend]
  rfl

/-- Conditions with an AND between them are members of one alternative. -/
theorem run_members (h : List.Forall₂ Forms tss rs) (hrs : rs ≠ []) (hl : l.Ready)
    (hnegations : l.negations = 0) (ls : List Level) :
    ∃ l', run (l :: ls) ([.andWord].intercalate tss) = some (l' :: ls) ∧ l.Gains l' rs := by
  induction h generalizing l with
  | nil => exact absurd rfl hrs
  | @cons ts r tss rs hfirst hrest ih =>
      obtain ⟨l', hrun, hgains⟩ := hfirst l ls hl
      rw [hnegations] at hgains
      cases hrest with
      | nil =>
          rw [List.intercalate_singleton]
          exact ⟨l', hrun, hgains⟩
      | @cons us s tss rs hsecond hrest =>
          let next : Level :=
            { l' with conjuncts := l.conjuncts ++ [r], negations := 0, operand := [] }
          have hbetween : l'.between = false := between_of_members hgains.members
          have hand : l'.andNext = some next := by
            simp [andNext, hbetween, hgains.members, next]
          obtain ⟨l'', hrun', hgains'⟩ :=
            ih (List.cons_ne_nil _ _) (l := next) ⟨rfl, hbetween⟩ rfl
          refine ⟨l'', ?_, hgains'.query.trans hgains.query,
            hgains'.disjuncts.trans hgains.disjuncts, ?_⟩
          · rw [List.intercalate_cons_cons, List.append_assoc, run_append, hrun, Option.bind_some,
              List.singleton_append, run_cons, step, hand]
            exact hrun'
          · rw [hgains'.members, List.append_assoc]
            rfl

/-- Conditions with an OR between them are alternatives. -/
theorem run_alternatives (h : List.Forall₂ Forms tss rs) (hrs : rs ≠ []) (hl : l.Ready)
    (hnegations : l.negations = 0) (hconjuncts : l.conjuncts = []) (ls : List Level) :
    ∃ l' r, run (l :: ls) ([.orWord].intercalate tss) = some (l' :: ls) ∧ l'.query = l.query ∧
      l'.members = some [r] ∧ l'.disjuncts ++ [r] = l.disjuncts ++ rs := by
  induction h generalizing l with
  | nil => exact absurd rfl hrs
  | @cons ts r tss rs hfirst hrest ih =>
      obtain ⟨l', hrun, hgains⟩ := hfirst l ls hl
      have hmembers : l'.members = some [r] := by
        rw [hgains.members, hnegations, hconjuncts]
        rfl
      cases hrest with
      | nil =>
          rw [List.intercalate_singleton]
          exact ⟨l', r, hrun, hgains.query, hmembers, by rw [hgains.disjuncts]⟩
      | @cons us s tss rs hsecond hrest =>
          let next : Level :=
            { l' with
              disjuncts := l'.disjuncts ++ [r], conjuncts := [], negations := 0, operand := [] }
          have hor : l'.orNext = some next := by
            rw [orNext, hmembers]
            rfl
          have hbetween : l'.between = false := between_of_members hgains.members
          obtain ⟨l'', r', hrun', hquery, hmembers', hdisjuncts⟩ :=
            ih (List.cons_ne_nil _ _) (l := next) ⟨rfl, hbetween⟩ rfl rfl
          refine ⟨l'', r', ?_, hquery.trans hgains.query, hmembers', ?_⟩
          · rw [List.intercalate_cons_cons, List.append_assoc, run_append, hrun, Option.bind_some,
              List.singleton_append, run_cons, step, hor]
            exact hrun'
          · rw [hdisjuncts]
            simp [next, hgains.disjuncts]

theorem yields_conjoined (h : List.Forall₂ Forms tss rs) (hrs : rs ≠ []) :
    Yields ([.andWord].intercalate tss) none (.conjoined rs) := by
  intro ls
  obtain ⟨l, hrun, hgains⟩ := run_members h hrs (l := {}) ⟨rfl, rfl⟩ rfl ls
  refine ⟨l, hrun, hgains.query, ?_⟩
  rw [result, hgains.members, hgains.disjuncts]
  rfl

theorem yields_disjoined (h : List.Forall₂ Forms tss rs) (hrs : rs ≠ []) :
    Yields ([.orWord].intercalate tss) none (.disjoined rs) := by
  intro ls
  obtain ⟨l, r, hrun, hquery, hmembers, hdisjuncts⟩ :=
    run_alternatives h hrs (l := {}) ⟨rfl, rfl⟩ rfl rfl ls
  refine ⟨l, hrun, hquery, ?_⟩
  have hlast : l.disjuncts ++ [Reading.conjoined [r]] = rs := hdisjuncts
  rw [result, hmembers, Option.map_some, hlast]

/-- The condition of a query is about its rows. -/
theorem yields_where (hquery : Inert us items) (h : List.Forall₂ Forms tss rs) (hrs : rs ≠ []) :
    Yields (.selectWord :: (us ++ .whereWord :: [.andWord].intercalate tss))
      (some (.selectWord :: us)) (.conjoined rs) := by
  intro ls
  let start : Level := { query := some (.selectWord :: us) }
  obtain ⟨l, hrun, hgains⟩ := run_members h hrs (l := start) ⟨rfl, rfl⟩ rfl ls
  have hwhere :
      ((({} : Level).extend [.token .selectWord]).extend items).whereNext = some start := by
    show (tokensOf items).map _ = _
    rw [hquery.tokens]
    rfl
  refine ⟨l, ?_, hgains.query, ?_⟩
  · have hselect : step ({} :: ls) .selectWord =
        some (({} : Level).extend [.token .selectWord] :: ls) := rfl
    rw [run_cons, hselect, Option.bind_some, run_append, hquery.run, Option.bind_some, run_cons,
      step, hwhere]
    exact hrun
  · rw [result, hgains.members, hgains.disjuncts]
    rfl

/-- **A text is read part by part**: conditions with an AND between them are its members. -/
theorem readMembers_eq {s : String} (hlex : Lexes s ([.andWord].intercalate tss))
    (h : List.Forall₂ Forms tss rs) (hrs : rs ≠ []) :
    readMembers s = some rs ∧ Grouped ([.andWord].intercalate tss) := by
  obtain ⟨l, hrun, hgains⟩ := run_members h hrs (l := {}) ⟨rfl, rfl⟩ rfl []
  have hwhole : l.whole = some rs := by
    rw [whole, hgains.query, hgains.disjuncts, hgains.members]
    rfl
  refine ⟨?_, grouped_of_run hrun hgains.disjuncts⟩
  have hs : lex s = some _ := hlex
  simp [readMembers, hs, hrun, hwhole]

/-- **What is read as a condition is grouped.** -/
theorem grouped_of_readMembers {s : String} (h : readMembers s = some rs) :
    ∃ ts, Lexes s ts ∧ Grouped ts := by
  obtain ⟨ts, hlex, h⟩ := Option.bind_eq_some_iff.1 h
  obtain ⟨ls, hrun, h⟩ := Option.bind_eq_some_iff.1 h
  refine ⟨ts, hlex, ?_⟩
  split at h
  · next l =>
      have hdisjuncts : l.disjuncts = [] := by
        unfold whole at h
        split at h
        · next hwhole => simpa using (Bool.and_eq_true_iff.1 hwhole).2
        · cases h
      exact grouped_of_run hrun hdisjuncts
  · cases h

example : readMembers "(a OR b AND c) AND d BETWEEN 1 AND 2 AND NOT e = \"f OR \"\"g\"" = some [
    .disj [.comparison [.word "a"], .conj [.comparison [.word "b"], .comparison [.word "c"]]],
    .comparison [.word "d", .betweenWord, .word "1", .andWord, .word "2"],
    .neg (.comparison [.word "e", .mark '=', .name "f OR \"g"])] := by
  rfl

end Warden.Sql
