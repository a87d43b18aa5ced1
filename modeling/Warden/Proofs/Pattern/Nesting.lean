import Warden.Pattern.Reader

/-! # Deeply nested patterns

A pattern is nested too deep where its groups are read by more calls within calls than there can be,
or where what was read is prepared by more. Both go as deep as groups stand inside each other. So it
never happens to a pattern with few opening parentheses (**`ofText_ne_tooDeep`**), and it always
happens to one that begins with many of them, whatever follows (**`ofText_eq_tooDeep`**).

For the first, **`Within`** says of a reader that it leaves no more parentheses than there were and
is not nested too deep. Only a group takes a parenthesis away, so two calls for each and one for
itself read a sequence, and three for each and one for a repetition prepare it: the group, its
choices and a repetition of the group. -/

namespace Warden.Pattern

variable {α β : Type} {n : Nat} {r : Reader α} {Q : α → Prop}

/-- How many parentheses open. -/
def opens (ts : List Token) : Nat :=
  ts.count (.plain '(')

theorem opens_tail_le (ts : List Token) : opens ts.tail ≤ opens ts :=
  ts.tail_sublist.count_le _

/-! ## Runs of readers -/

section Runs

variable {s : Reading} {t : Token} {ts : List Token}

theorem bind_of_ok {f : α → Reader β} {a : α} {s' : Reading} (h : r s = .ok (a, s')) :
    (r >>= f) s = f a s' := by
  change (r s >>= fun p => f p.1 p.2) = _
  rw [h]
  rfl

theorem bind_of_error {f : α → Reader β} {e : Fault} (h : r s = .error e) :
    (r >>= f) s = .error e := by
  change (r s >>= fun p => f p.1 p.2) = _
  rw [h]
  rfl

theorem get_bind (f : Reading → Reader α) (s : Reading) :
    ((get : Reader Reading) >>= f) s = f s s :=
  rfl

theorem peek_bind (f : Option Token → Reader α) (s : Reading) :
    (peek >>= f) s = f s.rest.head? s :=
  rfl

theorem refuseIf_bind (b : Bool) (f : Unit → Reader α) (s : Reading) :
    (refuseIf b >>= f) s = if b then .error .unreadable else f () s := by
  cases b <;> rfl

theorem skip_bind {f : Unit → Reader α} (h : s.rest = t :: ts) :
    (skip >>= f) s =
      if ts.head? = some .dangling then .error .unreadable else f () { s with rest := ts } := by
  have hskip : skip s = (refuseIf (ts.head? = some .dangling) >>= fun _ =>
      modify fun r => { r with rest := ts }) s := by
    rw [skip, get_bind, h]
    rfl
  by_cases hts : ts.head? = some .dangling
  · rw [refuseIf_bind, if_pos (decide_eq_true hts)] at hskip
    rw [if_pos hts, bind_of_error hskip]
  · rw [refuseIf_bind, if_neg (by rwa [decide_eq_true_eq])] at hskip
    rw [if_neg hts, bind_of_ok hskip]

theorem tryChar_of_rest {c : Char} (h : s.rest = t :: ts) (ht : t ≠ .plain c) :
    tryChar c s = .ok (false, s) := by
  unfold tryChar
  rw [peek_bind, h, List.head?_cons, if_neg fun heq => ht (Option.some.inj heq)]
  rfl

end Runs

/-! ## Readers and what they leave -/

/-- Where at most `n` parentheses open, no more are left by the reader, what it reads has the
property, and it is not nested too deep. -/
structure Within (n : Nat) (r : Reader α) (Q : α → Prop) : Prop where
  /-- What is read and what is left. -/
  result : ∀ {s a t}, opens s.rest ≤ n → r s = .ok (a, t) → Q a ∧ opens t.rest ≤ n
  /-- Why it is turned down. -/
  fault : ∀ {s f}, opens s.rest ≤ n → r s = .error f → f ≠ .tooDeep

/-- The reader is within every number of parentheses. -/
abbrev Harmless (r : Reader α) : Prop :=
  ∀ n, Within n r fun _ => True

namespace Within

theorem mono {R : α → Prop} (h : Within n r Q) (hQ : ∀ a, Q a → R a) : Within n r R where
  result hs hr := (h.result hs hr).imp_left (hQ _)
  fault := h.fault

theorem pure {a : α} (h : Q a) : Within n (Pure.pure a : Reader α) Q where
  result hs hr := by
    cases hr
    exact ⟨h, hs⟩
  fault _ hr := nomatch hr

theorem throw {f : Fault} (h : f ≠ .tooDeep) : Within n (MonadExcept.throw f : Reader α) Q where
  result _ hr := nomatch hr
  fault _ hr := by
    cases hr
    exact h

theorem unreadable : Within n (Pattern.unreadable : Reader α) Q :=
  throw nofun

theorem bind {f : α → Reader β} {R : β → Prop} (h : Within n r Q)
    (hf : ∀ a, Q a → Within n (f a) R) : Within n (r >>= f) R where
  result {s b t} hs hr := by
    change (r s >>= fun p => f p.1 p.2) = _ at hr
    cases hrs : r s with
    | error e => rw [hrs] at hr; cases hr
    | ok p =>
        rw [hrs] at hr
        obtain ⟨ha, ht⟩ := h.result hs hrs
        exact (hf _ ha).result ht hr
  fault {s e} hs hr := by
    change (r s >>= fun p => f p.1 p.2) = _ at hr
    cases hrs : r s with
    | error d =>
        rw [hrs] at hr
        cases hr
        exact h.fault hs hrs
    | ok p =>
        rw [hrs] at hr
        obtain ⟨ha, ht⟩ := h.result hs hrs
        exact (hf _ ha).fault ht hr

theorem ite {b : Prop} [Decidable b] {q : Reader α} (hr : Within n r Q) (hq : Within n q Q) :
    Within n (if b then r else q) Q := by
  split
  · exact hr
  · exact hq

theorem ite_bind {b : Prop} [Decidable b] {q : Reader α} {f : α → Reader β} {R : β → Prop}
    (hr : Within n r Q) (hq : Within n q Q) (hf : ∀ a, Q a → Within n (f a) R) :
    Within n (if b then r >>= f else q >>= f) R :=
  .ite (hr.bind hf) (hq.bind hf)

theorem get : Within n (MonadState.get : Reader Reading) fun s => opens s.rest ≤ n where
  result hs hr := by
    cases hr
    exact ⟨hs, hs⟩
  fault _ hr := nomatch hr

theorem set {s : Reading} (h : opens s.rest ≤ n) :
    Within n (MonadStateOf.set s : Reader PUnit) fun _ => True where
  result _ hr := by
    cases hr
    exact ⟨trivial, h⟩
  fault _ hr := nomatch hr

theorem modified {f : Reading → Reading}
    (h : ∀ s, opens s.rest ≤ n → opens (f s).rest ≤ n) :
    Within n (modify f : Reader PUnit) fun _ => True where
  result hs hr := by
    cases hr
    exact ⟨trivial, h _ hs⟩
  fault _ hr := nomatch hr

end Within

namespace Harmless

theorem pure (a : α) : Harmless (Pure.pure a : Reader α) :=
  fun _ => .pure trivial

theorem bind {f : α → Reader β} {R : β → Prop} (h : Harmless r)
    (hf : ∀ a, Within n (f a) R) : Within n (r >>= f) R :=
  (h n).bind fun a _ => hf a

theorem map (f : α → β) (h : Harmless r) : Harmless (r >>= fun a => Pure.pure (f a)) :=
  fun _ => h.bind fun _ => .pure trivial

theorem modified {f : Reading → Reading} (h : ∀ s, (f s).rest = s.rest) :
    Harmless (modify f : Reader PUnit) :=
  fun _ => .modified fun s hs => (h s).symm ▸ hs

end Harmless

/-! ## Tokens and characters -/

theorem harmless_unreadable : Harmless (unreadable : Reader α) :=
  fun _ => .unreadable

theorem harmless_refuseIf (b : Bool) : Harmless (refuseIf b) :=
  fun _ => .ite .unreadable (.pure trivial)

theorem harmless_peek : Harmless peek :=
  fun _ => Within.get.bind fun _ _ => .pure trivial

theorem harmless_skip : Harmless skip := fun _ =>
  Within.get.bind fun s hs => (harmless_refuseIf _).bind fun _ =>
    .modified fun _ _ => Nat.le_trans (opens_tail_le s.rest) hs

theorem harmless_tryChar (c : Char) : Harmless (tryChar c) := fun _ =>
  harmless_peek.bind fun _ =>
    .ite (harmless_skip.bind fun _ => .pure trivial) (.pure trivial)

theorem harmless_expect (c : Char) : Harmless (expect c) := fun n =>
  (harmless_tryChar c).bind fun _ => harmless_refuseIf _ n

theorem harmless_next : Harmless next := fun _ =>
  harmless_peek.bind fun
    | some _ => harmless_skip.bind fun _ => .pure trivial
    | none => .unreadable

theorem harmless_takeWhile (p : Char → Bool) (k : Nat) : Harmless (takeWhile p k) := by
  induction k with
  | zero => exact .pure _
  | succ k ih =>
      refine fun n => harmless_peek.bind fun t => ?_
      split
      · exact .ite (harmless_skip.bind fun _ => ih.map _ n) (.pure trivial)
      · exact .pure trivial

theorem harmless_takeUntil (c : Char) : Harmless (takeUntil c) := fun _ =>
  Within.get.bind fun _ _ => (harmless_takeWhile _ _).bind fun _ =>
    (harmless_expect c).bind fun _ => (harmless_refuseIf _).bind fun _ => .pure trivial

theorem harmless_readCode (k : Nat) : Harmless (readCode k) := fun _ =>
  (harmless_takeWhile _ k).bind fun _ => (harmless_refuseIf _).bind fun _ => .pure trivial

theorem harmless_octal (digits : List Char) : Harmless (octal digits) := fun _ =>
  (harmless_refuseIf _).bind fun _ => .pure trivial

theorem harmless_readEscape (c : Char) : Harmless (readEscape c) := by
  intro n
  unfold readEscape
  split
  · exact .pure trivial
  · refine .ite (harmless_readCode 2 n) (.ite (harmless_readCode 4 n) (.ite ?_ ?_))
    · exact (harmless_readCode 8).bind fun _ => (harmless_refuseIf _).bind fun _ => .pure trivial
    · exact .ite .unreadable (.pure trivial)

theorem harmless_readClassItem (t : Token) : Harmless (readClassItem t) := by
  intro n
  unfold readClassItem
  split
  · exact .pure trivial
  · exact .unreadable
  · refine .ite (.pure trivial) ?_
    split
    · exact .pure trivial
    · refine .ite ?_ (.ite .unreadable ((harmless_readEscape _).map _ n))
      exact (harmless_takeWhile _ _).bind fun _ => (harmless_octal _).map _ n

theorem harmless_readClass (fuel : Nat) (items : List CharTest) :
    Harmless (readClass fuel items) := by
  induction fuel generalizing items with
  | zero => exact harmless_unreadable
  | succ fuel ih =>
      refine fun n => harmless_next.bind fun t => .ite (.pure trivial) ?_
      refine (harmless_readClassItem t).bind fun low => (harmless_tryChar '-').bind fun _ => ?_
      refine .ite (harmless_next.bind fun t => .ite (.pure trivial) ?_) (ih _ n)
      refine (harmless_readClassItem t).bind fun high => ?_
      split
      · exact (harmless_refuseIf _).bind fun _ => ih _ n
      · exact .unreadable

/-! ## Repetitions -/

theorem harmless_boundsOf (low high : List Char) : Harmless (boundsOf low high) := fun _ =>
  .ite (.throw nofun) ((harmless_refuseIf _).bind fun _ => .pure trivial)

theorem harmless_readBraces : Harmless readBraces := by
  refine fun n => Within.get.bind fun here hhere => ?_
  refine (harmless_takeWhile _ _).bind fun low => (harmless_tryChar ',').bind fun isPair => ?_
  refine .ite_bind (harmless_takeWhile _ _ n) (.pure trivial) fun high _ => ?_
  refine (harmless_tryChar _).bind fun _ => .ite ?_ ((harmless_boundsOf low high).map _ n)
  exact Within.bind (Within.set hhere) fun _ _ => .pure trivial

theorem harmless_readBounds (sign : Char) : Harmless (readBounds sign) := by
  intro n
  unfold readBounds
  split
  case h_4 => exact harmless_readBraces n
  all_goals exact .pure trivial

theorem harmless_readKind : Harmless readKind := fun _ =>
  (harmless_tryChar _).bind fun _ => .ite (.pure trivial) <|
    (harmless_tryChar _).bind fun _ => .ite (.pure trivial) (.pure trivial)

/-! ## Groups and options -/

theorem harmless_checkBehind (number : Nat) : Harmless (checkBehind number) := fun n =>
  Within.get.bind fun _ _ => harmless_refuseIf _ n

theorem harmless_openGroup (name : Option String) : Harmless (openGroup name) := by
  refine fun n => Within.get.bind fun s hs => (harmless_refuseIf _).bind fun _ => ?_
  exact Within.bind (Within.set hs) fun _ _ => .pure trivial

theorem harmless_closeGroup (number : Nat) (p : Pattern) : Harmless (closeGroup number p) :=
  .modified fun _ => rfl

theorem harmless_numberNamed (name : String) : Harmless (numberNamed name) := by
  refine fun n => Within.get.bind fun s _ => ?_
  split
  · exact .pure trivial
  · exact .unreadable

theorem harmless_numberWritten (s : String) : Harmless (numberWritten s) := by
  refine fun n => (harmless_refuseIf _).bind fun _ => ?_
  exact Harmless.bind (.modified fun _ => rfl) fun _ => .pure trivial

theorem harmless_conditionNumber (s : String) : Harmless (conditionNumber s) := fun n =>
  .ite_bind (harmless_numberNamed s n) (harmless_numberWritten s n) fun number _ =>
    (harmless_checkBehind number).bind fun _ => .pure trivial

theorem harmless_readLetters (first : Char) : Harmless (readLetters first) := by
  refine fun n => Within.get.bind fun s _ => (harmless_takeWhile _ _).bind fun _ => ?_
  refine harmless_next.bind fun t => ?_
  split
  · exact .pure trivial
  · exact .unreadable

theorem harmless_readTurnedOff (on : List Char) : Harmless (readTurnedOff on) := by
  refine fun n => harmless_next.bind fun t => ?_
  split
  · exact (harmless_readLetters _).bind fun _ =>
      (harmless_refuseIf _).bind fun _ => .pure trivial
  · exact .unreadable

theorem harmless_readOptions (first : Char) : Harmless (readOptions first) := by
  refine fun n => .ite_bind (Q := fun _ => True) (.pure trivial) (harmless_readLetters first n) ?_
  rintro ⟨on, stop⟩ -
  refine (harmless_refuseIf _).bind fun _ => .ite (.pure trivial) ?_
  refine (harmless_refuseIf _).bind fun _ => .ite (.pure trivial) ?_
  exact (harmless_refuseIf _).bind fun _ => (harmless_readTurnedOff on).map _ n

theorem harmless_skipComment (fuel : Nat) : Harmless (skipComment fuel) := by
  induction fuel with
  | zero => exact harmless_unreadable
  | succ fuel ih => exact fun n => harmless_next.bind fun t => .ite (ih n) (.pure trivial)

theorem harmless_skipLine (fuel : Nat) : Harmless (skipLine fuel) := by
  induction fuel with
  | zero => exact .pure _
  | succ fuel ih =>
      refine fun n => harmless_peek.bind fun t => ?_
      split
      · exact .pure trivial
      · exact harmless_skip.bind fun _ => .ite (ih n) (.pure trivial)

/-! ## Calls -/

theorem calls_choice_le {p q : Pattern} {m : Nat} (hp : p.calls ≤ m)
    (hq : q.calls ≤ m ∨ (∃ a b, q = choice a b) ∧ q.calls ≤ m + 1) :
    (choice p q).calls ≤ m + 1 := by
  rcases hq with hq | ⟨⟨a, b, rfl⟩, hq⟩
  · cases q <;> simp only [calls] at hq ⊢ <;> omega
  · rw [calls]
    omega

/-- What was read of a sequence with `n` opening parentheses can be prepared with few calls. -/
structure Items.Fit (n : Nat) (items : Items) : Prop where
  /-- All but the last part. -/
  front : items.front.calls ≤ 3 * n + 1
  /-- The last part. -/
  last : items.last.calls ≤ 3 * n + 1
  /-- The last part, if it can be repeated. -/
  other : items.kind = .other → items.last.calls ≤ 3 * n

namespace Items.Fit

variable {items : Items}

theorem empty : Items.empty.Fit n :=
  ⟨Nat.zero_le _, Nat.zero_le _, nofun⟩

theorem add (h : items.Fit n) {p : Pattern} (hp : p.calls ≤ 3 * n) (kind : LastItem) :
    (items.add p kind).Fit n :=
  ⟨Nat.max_le.2 ⟨h.front, h.last⟩, Nat.le_succ_of_le hp, fun _ => hp⟩

theorem repeated (h : items.Fit n) (hkind : items.kind = .other) (kind : RepetitionKind)
    (least : Nat) (most : Option Nat) :
    Items.Fit n { items with last := .repeated kind least most items.last, kind := .repetition } :=
  ⟨h.front, Nat.succ_le_succ (h.other hkind), nofun⟩

theorem pattern (h : items.Fit n) : items.pattern.calls ≤ 3 * n + 1 :=
  Nat.max_le.2 ⟨h.front, h.last⟩

end Items.Fit

/-! ## Sequences -/

theorem within_reference (o : PatternOptions) (number : Nat) :
    Within n (reference o number) fun p => p.calls = 0 := by
  refine Within.get.bind fun s _ => ?_
  split
  · exact (harmless_checkBehind number).bind fun _ => .pure rfl
  · exact .unreadable

theorem within_readReference (o : PatternOptions) (c : Char) :
    Within n (readReference o c) fun p => p.calls = 0 := by
  refine (harmless_takeWhile _ _).bind fun ds => ?_
  split
  · refine .ite ((harmless_takeWhile _ _).bind fun es => ?_) (within_reference o _)
    split
    · exact (harmless_octal _).bind fun _ => .pure rfl
    · exact within_reference o _
  · exact within_reference o _

theorem within_readEscaped {items : Items} {m : Nat} (h : items.Fit m) (o : PatternOptions)
    (c : Char) : Within n (readEscaped o items c) (Items.Fit m) := by
  have hchar (test : CharTest) : (items.add (.char o test) .other).Fit m :=
    h.add (Nat.zero_le _) _
  unfold readEscaped
  split
  · exact .pure (h.add (Nat.zero_le _) _)
  · split
    · exact .pure (hchar _)
    · refine .ite ?_ (.ite ?_ ((harmless_readEscape c).bind fun _ => .pure (hchar _)))
      · exact (harmless_takeWhile _ _).bind fun _ =>
          (harmless_octal _).bind fun _ => .pure (hchar _)
      · exact (within_readReference o c).bind fun p hp => .pure (h.add (hp ▸ Nat.zero_le _) _)

theorem within_readRepetition {items : Items} {m : Nat} (h : items.Fit m) (o : PatternOptions)
    (c : Char) : Within n (readRepetition o items c) (Items.Fit m) := by
  refine (harmless_readBounds c).bind fun bounds => ?_
  split
  · exact .pure (h.add (Nat.zero_le _) _)
  · split
    case h_4 hkind =>
      exact harmless_readKind.bind fun kind => .pure (h.repeated hkind kind _ _)
    all_goals exact .unreadable

theorem within_readBrackets (o : PatternOptions) :
    Within n (readBrackets o) fun p => p.calls = 0 :=
  (harmless_tryChar _).bind fun _ => Within.get.bind fun _ _ =>
    (harmless_readClass _ _).bind fun _ => .pure rfl

/-! ## Groups -/

/-- With fewer than `m` parentheses in front the reader is within them, and what it reads can be
prepared with one call less than three for each of `m`. -/
def Fits (m : Nat) (reader : SequenceReader) : Prop :=
  ∀ n < m, ∀ o, Within n (reader o) fun p => p.calls + 1 ≤ 3 * m

section Groups

variable {m : Nat} {choices branch : SequenceReader}

theorem within_readInside (h : Fits m choices) (hn : n < m) (o : PatternOptions) :
    Within n (readInside choices o) fun p => p.calls + 1 ≤ 3 * m :=
  (h n hn o).bind fun _ hp => (harmless_expect _).bind fun _ => .pure hp

theorem within_readGroup (h : Fits m choices) (hn : n < m) (o : PatternOptions)
    (name : Option String) : Within n (readGroup choices o name) fun p => p.calls ≤ 3 * m :=
  (harmless_openGroup name).bind fun _ => (within_readInside h hn o).bind fun _ hp =>
    (harmless_closeGroup _ _).bind fun _ => .pure hp

theorem within_readAhead (h : Fits m choices) (hn : n < m) (o : PatternOptions) (wanted : Bool) :
    Within n (readAhead choices o wanted) fun p => p.calls ≤ 3 * m :=
  (within_readInside h hn o).bind fun _ hp => .pure hp

theorem within_readBehind (h : Fits m choices) (hn : n < m) (o : PatternOptions)
    (wanted : Bool) : Within n (readBehind choices o wanted) fun p => p.calls ≤ 3 * m := by
  refine Within.get.bind fun s _ => Harmless.bind (.modified fun _ => rfl) fun _ => ?_
  refine (h n hn o).bind fun p hp => Harmless.bind (.modified fun _ => rfl) fun _ => ?_
  exact (harmless_expect _).bind fun _ => .pure hp

theorem within_readGiven (h : Fits m branch) (hn : n < m) (o : PatternOptions) :
    Within n (readGiven branch o) fun p => p.calls ≤ 3 * m := by
  refine (harmless_takeUntil _).bind fun s => (harmless_conditionNumber s).bind fun number => ?_
  refine (h n hn o).bind fun p hp => (harmless_tryChar _).bind fun _ => ?_
  have hempty : Pattern.empty.calls + 1 ≤ 3 * m := by
    simp only [calls]
    omega
  refine .ite_bind (h n hn o) (.pure hempty) fun q hq => ?_
  refine (harmless_expect _).bind fun _ => .pure ?_
  simp only [calls]
  omega

theorem within_readScoped (h : Fits m choices) (hn : n < m) (o : PatternOptions) (c : Char) :
    Within n (readScoped choices o c) fun p => p.calls ≤ 3 * m :=
  (harmless_readOptions c).bind fun _ => (harmless_refuseIf _).bind fun _ =>
    (within_readInside h hn _).bind fun _ hp => .pure hp

theorem within_readNamed (h : Fits m choices) (hn : n < m) (o : PatternOptions) :
    Within n (readNamed choices o) fun p => p.calls ≤ 3 * m :=
  (harmless_takeUntil _).bind fun _ => (harmless_refuseIf _).bind fun _ =>
    within_readGroup h hn o _

theorem within_readNamedReference (o : PatternOptions) :
    Within n (readNamedReference o) fun p => p.calls = 0 :=
  (harmless_expect _).bind fun _ => (harmless_takeUntil _).bind fun name =>
    (harmless_refuseIf _).bind fun _ => (harmless_numberNamed name).bind fun _ =>
      within_reference o _

theorem within_readExtension (hc : Fits m choices) (hb : Fits m branch) (hn : n < m)
    (o : PatternOptions) (c : Char) :
    Within n (readExtension choices branch o c) fun p => p.calls ≤ 3 * m := by
  unfold readExtension
  split
  · refine (harmless_tryChar _).bind fun _ => .ite (within_readNamed hc hn o) ?_
    exact (within_readNamedReference o).mono fun p hp => hp ▸ Nat.zero_le _
  · exact (within_readInside hc hn o).mono fun p => Nat.le_of_succ_le
  · exact (within_readInside hc hn o).bind fun _ hp => .pure hp
  · exact within_readAhead hc hn o _
  · exact within_readAhead hc hn o _
  · refine (harmless_tryChar _).bind fun _ => .ite (within_readBehind hc hn o _) ?_
    exact (harmless_expect _).bind fun _ => within_readBehind hc hn o _
  · exact within_readGiven hb hn o
  · exact .ite (within_readScoped hc hn o _) .unreadable

theorem within_readParenthesis (hc : Fits m choices) (hb : Fits m branch) (hn : n < m)
    (o : PatternOptions) {items : Items} (h : items.Fit m) :
    Within n (readParenthesis choices branch o items) (Items.Fit m) := by
  refine (harmless_tryChar _).bind fun _ => .ite (harmless_next.bind fun t => ?_) ?_
  · split
    · exact Within.get.bind fun _ _ => (harmless_skipComment _).bind fun _ => .pure h
    · exact (within_readExtension hc hb hn o _).bind fun p hp => .pure (h.add hp _)
    · exact .unreadable
  · exact (within_readGroup hc hn o none).bind fun p hp => .pure (h.add hp _)

theorem within_readItem (hc : Fits m choices) (hb : Fits m branch) (o : PatternOptions)
    {items : Items} (h : items.Fit m) {c : Char} (hn : c = '(' → n < m) :
    Within n (readItem choices branch o items c) (Items.Fit m) := by
  have hzero {p : Pattern} (hp : p.calls = 0) (kind : LastItem) : (items.add p kind).Fit m :=
    h.add (hp ▸ Nat.zero_le _) kind
  unfold readItem
  split
  · exact within_readParenthesis hc hb (hn rfl) o h
  · exact (within_readBrackets o).bind fun p hp => .pure (hzero hp _)
  case h_6 | h_7 | h_8 | h_9 => exact within_readRepetition h o _
  all_goals exact .pure (hzero rfl _)

/-- A parenthesis in front is one less behind it. -/
theorem Within.peeked {f : Option Token → Reader α}
    (hf : ∀ t, t ≠ some (.plain '(') → Within n (f t) Q)
    (hopen : ∀ k < n, ∃ g, f (some (.plain '(')) = skip >>= g ∧ Within k (g ()) Q) :
    Within n (peek >>= f) Q := by
  have hat {s : Reading} (hs : opens s.rest ≤ n) : (∃ k t r, k ≤ n ∧ opens t.rest ≤ k ∧
      Within k r Q ∧ (peek >>= f) s = r t) ∨ (peek >>= f) s = .error .unreadable := by
    rw [peek_bind]
    by_cases hhead : s.rest.head? = some (.plain '(')
    · obtain ⟨ts, hts⟩ := List.head?_eq_some_iff.1 hhead
      have hopens : opens s.rest = opens ts + 1 := by rw [hts, opens, List.count_cons_self, opens]
      obtain ⟨g, hg, hwithin⟩ := hopen (opens ts) (by omega)
      rw [hhead, hg, skip_bind hts]
      split
      · exact .inr rfl
      · exact .inl ⟨opens ts, _, g (), by omega, Nat.le_refl _, hwithin, rfl⟩
    · exact .inl ⟨n, s, _, Nat.le_refl n, hs, hf _ hhead, rfl⟩
  constructor
  · intro s a t hs hr
    rcases hat hs with ⟨k, u, r, hk, hu, hwithin, heq⟩ | heq
    · exact (hwithin.result hu (heq ▸ hr)).imp_right fun h => Nat.le_trans h hk
    · rw [heq] at hr
      cases hr
  · intro s e hs hr
    rcases hat hs with ⟨k, u, r, hk, hu, hwithin, heq⟩ | heq
    · exact hwithin.fault hu (heq ▸ hr)
    · rw [heq] at hr
      cases hr
      nofun

theorem within_readItems (hc : Fits m choices) (hb : Fits m branch) (o : PatternOptions)
    (fuel : Nat) {items : Items} (h : items.Fit m) (hn : n ≤ m) :
    Within n (readItems choices branch o fuel items) fun p => p.calls ≤ 3 * m + 1 := by
  induction fuel generalizing items n with
  | zero => exact .unreadable
  | succ fuel ih =>
      refine .peeked (fun t ht => ?_) fun k hk => ⟨_, rfl, ?_⟩
      · split
        · exact .pure h.pattern
        · exact .pure h.pattern
        · exact .pure h.pattern
        · exact .unreadable
        · exact harmless_skip.bind fun _ => (within_readEscaped h o _).bind fun _ h => ih h hn
        · refine harmless_skip.bind fun _ => .ite (ih h hn) (.ite ?_ ?_)
          · exact Within.get.bind fun _ _ => (harmless_skipLine _).bind fun _ => ih h hn
          · exact (within_readItem hc hb o h fun hopen => absurd (by rw [hopen]) ht).bind
              fun _ h => ih h hn
      · have hk' : k ≤ m := by omega
        refine .ite (ih h hk') (.ite ?_ ?_)
        · exact Within.get.bind fun _ _ => (harmless_skipLine _).bind fun _ => ih h hk'
        · exact (within_readItem hc hb o h fun _ => by omega).bind fun _ h => ih h hk'

theorem within_readChoices {sequence : SequenceReader} (o : PatternOptions)
    (h : Within n (sequence o) fun p => p.calls ≤ m) (fuel : Nat) :
    Within n (readChoices sequence o fuel) fun p =>
      p.calls ≤ m ∨ (∃ a b, p = .choice a b) ∧ p.calls ≤ m + 1 := by
  induction fuel with
  | zero => exact .unreadable
  | succ fuel ih =>
      refine h.bind fun p hp => (harmless_tryChar _).bind fun _ => .ite ?_ (.pure (.inl hp))
      exact ih.bind fun q hq => .pure (.inr ⟨⟨p, q, rfl⟩, calls_choice_le hp hq⟩)

theorem within_choiceReader {sequence : SequenceReader} (o : PatternOptions)
    (h : Within n (sequence o) fun p => p.calls ≤ m) :
    Within n (choiceReader sequence o) fun p => p.calls ≤ m + 1 := by
  refine Within.get.bind fun s _ => (within_readChoices o h _).mono ?_
  rintro p (hp | ⟨-, hp⟩)
  · exact Nat.le_succ_of_le hp
  · exact hp

end Groups

/-- With one call left nothing in parentheses can be read. -/
theorem sequenceReader_one (o : PatternOptions) :
    sequenceReader 1 o = get >>= fun s =>
      readItems (fun _ => throw .tooDeep) (sequenceReader 0) o (s.rest.length + 1) .empty :=
  rfl

/-- A sequence in parentheses has two calls less, and a branch of a condition one. -/
theorem sequenceReader_add_two (c : Nat) (o : PatternOptions) :
    sequenceReader (c + 2) o = get >>= fun s =>
      readItems (choiceReader (sequenceReader c)) (sequenceReader (c + 1)) o
        (s.rest.length + 1) .empty :=
  rfl

/-- Two calls for each parenthesis and one for itself are enough for a sequence. -/
theorem within_sequenceReader (c : Nat) (hc : 2 * n + 1 ≤ c) (o : PatternOptions) :
    Within n (sequenceReader c o) fun p => p.calls ≤ 3 * n + 1 := by
  induction c using Nat.strongRecOn generalizing n o with
  | ind c ih =>
    match c with
    | 0 => omega
    | 1 =>
        obtain rfl : n = 0 := by omega
        rw [sequenceReader_one]
        exact Within.get.bind fun _ _ => within_readItems
          (fun _ h => absurd h (Nat.not_lt_zero _)) (fun _ h => absurd h (Nat.not_lt_zero _))
          o _ .empty (Nat.le_refl 0)
    | c + 2 =>
        rw [sequenceReader_add_two]
        refine Within.get.bind fun _ _ => within_readItems ?_ ?_ o _ .empty (Nat.le_refl n)
        · exact fun k hk o => (within_choiceReader o
            (ih c (by omega) (by omega) o)).mono fun _ _ => by omega
        · exact fun k hk o => (ih (c + 1) (by omega) (by omega) o).mono fun _ _ => by omega

/-! ## Whole patterns -/

theorem harmless_readGlobal (fuel : Nat) (on : List Char) : Harmless (readGlobal fuel on) := by
  induction fuel generalizing on with
  | zero => exact .pure _
  | succ fuel ih =>
      refine fun n => Within.get.bind fun here hhere => ?_
      have hback : Within n (do
          set here
          return on) fun _ => True := Within.bind (Within.set hhere) fun _ _ => .pure trivial
      split
      · refine harmless_skip.bind fun _ => harmless_skip.bind fun _ => ?_
        refine harmless_skip.bind fun _ => ?_
        refine .ite ?_ (.ite ?_ hback)
        · exact Within.get.bind fun _ _ => (harmless_skipComment _).bind fun _ => ih _ n
        · exact (harmless_readOptions _).bind fun _ => .ite (ih _ n) hback
      · refine .ite (harmless_skip.bind fun _ => ih _ n) (.ite ?_ (.pure trivial))
        exact (harmless_skipLine _).bind fun _ => ih _ n
      · exact .pure trivial

theorem within_readWhole (hn : 2 * n + 1 < callLimit) :
    Within n readWhole fun p => p.1.calls ≤ 3 * n + 2 := by
  refine harmless_peek.bind fun _ => (harmless_refuseIf _).bind fun _ => ?_
  refine Within.get.bind fun _ _ => (harmless_readGlobal _ _).bind fun on => ?_
  refine (within_choiceReader _ (within_sequenceReader _ (Nat.le_sub_one_of_lt hn) _)).bind
    fun p hp => ?_
  exact Within.get.bind fun _ _ => (harmless_refuseIf _).bind fun _ => .pure hp

theorem opens_tokens_le (cs : List Char) : opens (tokens cs) ≤ cs.count '(' := by
  induction cs using tokens.induct with
  | case1 => exact Nat.le_refl 0
  | case2 => exact Nat.zero_le _
  | case3 c cs ih =>
      rw [tokens, opens, List.count_cons_of_ne (by simp)]
      exact Nat.le_trans ih ((List.Sublist.refl cs).cons c |>.cons '\\' |>.count_le _)
  | case4 c cs h₁ h₂ ih =>
      rw [tokens, opens, List.count_cons, List.count_cons]
      · refine Nat.add_le_add ih ?_
        simp
      · exact h₁
      · exact h₂

/-- **A pattern with few opening parentheses is not nested too deep.** -/
theorem ofText_ne_tooDeep {s : String} (h : s.toList.count '(' < 325) :
    ofText s ≠ .error .tooDeep := by
  have hopens : opens (tokens s.toList) ≤ 324 :=
    Nat.le_trans (opens_tokens_le _) (Nat.le_of_lt_succ h)
  have hwhole : Within 324 readWhole fun p => p.1.calls ≤ 974 := within_readWhole (by decide)
  unfold ofText
  intro heq
  cases hread : readWhole ⟨tokens s.toList, [], [], none, 0⟩ with
  | error f =>
      rw [hread] at heq
      cases heq
      exact hwhole.fault hopens hread rfl
  | ok result =>
      obtain ⟨⟨p, on⟩, t⟩ := result
      have hcalls : p.calls ≤ 974 := (hwhole.result hopens hread).1
      rw [hread] at heq
      change (if callLimit ≤ p.calls then _ else _) = _ at heq
      rw [if_neg (by unfold callLimit; omega)] at heq
      split at heq <;> cases heq

/-! ## Many parentheses -/

/-- A sequence whose first group has an inside that is nested too deep is so itself. -/
theorem readItems_eq_tooDeep {choices branch : SequenceReader} {o : PatternOptions} {fuel : Nat}
    {items : Items} {s : Reading} {ts : List Token} (hs : s.rest = .plain '(' :: .plain '(' :: ts)
    (h : ∀ s : Reading, s.rest = .plain '(' :: ts → choices o s = .error .tooDeep) :
    readItems choices branch o (fuel + 1) items s = .error .tooDeep := by
  have hgroup (s : Reading) (hs : s.rest = .plain '(' :: ts) :
      readItem choices branch o items '(' s = .error .tooDeep := by
    change readParenthesis choices branch o items s = _
    unfold readParenthesis
    rw [bind_of_ok (tryChar_of_rest hs (by decide)), if_neg Bool.false_ne_true]
    apply bind_of_error
    obtain ⟨s', hs', hopen⟩ : ∃ s', s'.rest = s.rest ∧
        openGroup none s = .ok (s.groups.length + 1, s') := ⟨_, rfl, rfl⟩
    rw [readGroup, bind_of_ok hopen]
    exact bind_of_error (bind_of_error (h s' (hs'.trans hs)))
  have hfiller : ¬(o.verbose && isFiller '(') = true := by
    rw [show isFiller '(' = false from rfl, Bool.and_false]
    exact Bool.false_ne_true
  have hcomment : ¬(o.verbose && decide ('(' = '#')) = true := by
    rw [show decide ('(' = '#') = false from rfl, Bool.and_false]
    exact Bool.false_ne_true
  rw [readItems, peek_bind, hs]
  refine (skip_bind hs).trans ?_
  rw [if_neg (by simp), if_neg hfiller, if_neg hcomment]
  exact bind_of_error (hgroup _ rfl)

theorem tokens_replicate (k : Nat) (cs : List Char) :
    tokens (List.replicate k '(' ++ cs) = List.replicate k (.plain '(') ++ tokens cs := by
  induction k with
  | zero => rfl
  | succ k ih =>
      rw [List.replicate_succ, List.cons_append, List.replicate_succ, List.cons_append, ← ih]
      rfl

/-- Two calls are gone with each parenthesis in front. -/
theorem sequenceReader_eq_tooDeep (c : Nat) {k : Nat} (hc : c ≤ 2 * k) (o : PatternOptions)
    {s : Reading} {ts : List Token} (hs : s.rest = List.replicate (k + 1) (.plain '(') ++ ts) :
    sequenceReader c o s = .error .tooDeep := by
  induction c using Nat.strongRecOn generalizing k s with
  | ind c ih =>
    match c, k with
    | 0, _ => rfl
    | 1, k + 1 =>
        rw [sequenceReader_one]
        exact readItems_eq_tooDeep hs fun _ _ => rfl
    | c + 2, k + 1 =>
        rw [sequenceReader_add_two]
        refine readItems_eq_tooDeep hs fun s hs => ?_
        rw [choiceReader, get_bind, readChoices]
        exact bind_of_error (ih c (by omega) (by omega) hs)

theorem readGlobal_eq_nil {s : Reading} {ts : List Token}
    (hs : s.rest = .plain '(' :: .plain '(' :: ts) (fuel : Nat) :
    readGlobal fuel [] s = .ok ([], s) := by
  cases fuel with
  | zero => rfl
  | succ fuel =>
      rw [readGlobal, get_bind, hs]
      rfl

/-- **A pattern that begins with many opening parentheses is nested too deep.** -/
theorem ofText_eq_tooDeep {k : Nat} (hk : 489 ≤ k) (cs : List Char) :
    ofText (String.ofList (List.replicate k '(' ++ cs)) = .error .tooDeep := by
  obtain ⟨k, rfl⟩ : ∃ l, k = l + 2 := ⟨k - 2, by omega⟩
  have hread (s : Reading) (hs : s.rest = List.replicate (k + 2) (.plain '(') ++ tokens cs) :
      readWhole s = .error .tooDeep := by
    have hhead : ¬decide (s.rest.head? = some .dangling) = true := by
      rw [hs, List.replicate_succ]
      simp
    rw [readWhole, peek_bind, refuseIf_bind, if_neg hhead, get_bind,
      bind_of_ok (readGlobal_eq_nil hs _)]
    apply bind_of_error
    rw [choiceReader, get_bind, readChoices]
    exact bind_of_error (sequenceReader_eq_tooDeep _ (by unfold callLimit; omega) _ hs)
  rw [ofText, String.toList_ofList, tokens_replicate, hread _ rfl]
  rfl

end Warden.Pattern
