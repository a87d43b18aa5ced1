import Warden.Proofs.Sql.Fragment
import Warden.Sql.Predicate

/-! # Words and marks of a statement

**`lex`** cuts the text of a statement into tokens: words, quoted names, quoted texts, parentheses,
marks and placeholders. What stands between quotes is one token, whatever it is. The words that give
a condition its structure are recognised in upper and lower case; a character that has no place in
the statements written here is refused, and so is a quote right behind a word, which would begin a
quoted text of another kind.

The cut is found from left to right, and a token ends where the next character cannot belong to it.
So a text can be cut piece by piece if each piece begins with such a character (**`Opens`**) or
stands behind one that leaves no token unfinished (**`Closed`**). -/

namespace Warden.Sql

/-! ## Tokens -/

/-- A part of a statement's text. -/
inductive Token where
  /-- The word that joins conditions which must all hold. -/
  | andWord
  /-- The word that joins conditions of which one must hold. -/
  | orWord
  /-- The word that negates. -/
  | notWord
  /-- The word before two bounds. -/
  | betweenWord
  /-- The word that asks for a row. -/
  | existsWord
  /-- The word that begins a query. -/
  | selectWord
  /-- The word that begins a condition on rows. -/
  | whereWord
  /-- A word that begins another clause. -/
  | clauseWord
  /-- Any other word or number. -/
  | word (s : String)
  /-- A quoted name. -/
  | name (s : String)
  /-- A quoted text. -/
  | literal (s : String)
  /-- An opening parenthesis. -/
  | opening
  /-- A closing parenthesis. -/
  | closing
  /-- A mark. -/
  | mark (c : Char)
  /-- A placeholder of a value. -/
  | placeholder
deriving DecidableEq

/-- The words with a meaning of their own. -/
def keywords : List (String × Token) := [
  ("AND", .andWord), ("OR", .orWord), ("NOT", .notWord), ("BETWEEN", .betweenWord),
  ("EXISTS", .existsWord), ("SELECT", .selectWord), ("WHERE", .whereWord),
  ("GROUP", .clauseWord), ("HAVING", .clauseWord), ("WINDOW", .clauseWord),
  ("ORDER", .clauseWord), ("LIMIT", .clauseWord), ("OFFSET", .clauseWord),
  ("FETCH", .clauseWord), ("UNION", .clauseWord), ("INTERSECT", .clauseWord),
  ("EXCEPT", .clauseWord), ("RETURNING", .clauseWord), ("CASE", .clauseWord)]

/-- The token of a word. -/
def wordToken (cs : List Char) : Token :=
  match keywords.find? fun entry => entry.1.toList = cs.map Char.toUpper with
  | some entry => entry.2
  | none => .word (String.ofList cs)

/-! ## Cutting a text -/

/-- What has been read of the token that is not finished. -/
inductive Mode where
  /-- Nothing: the next character begins a token. -/
  | between
  /-- The beginning of a word. -/
  | word (read : List Char)
  /-- The beginning of a quoted name. -/
  | name (read : List Char)
  /-- A quoted name and a quote, which ends it unless another one follows. -/
  | nameQuote (read : List Char)
  /-- The beginning of a quoted text. -/
  | text (read : List Char)
  /-- A quoted text and a quote, which ends it unless another one follows. -/
  | textQuote (read : List Char)
  /-- A per cent sign. -/
  | percent
deriving DecidableEq

/-- The character can stand in a word. -/
def isWordChar (c : Char) : Bool :=
  c.isAlphanum || c = '_'

/-- The characters that are tokens of their own. -/
def marks : List Char := ['.', ',', ':', '=', '<', '>', '@', '&', '|', '?', '~', '[', ']']

/-- What the first character of a token gives. -/
def begin? (c : Char) : Option (List Token × Mode) :=
  if c.isWhitespace then some ([], .between)
  else if isWordChar c then some ([], .word [c])
  else if c = '"' then some ([], .name [])
  else if c = '\'' then some ([], .text [])
  else if c = '(' then some ([.opening], .between)
  else if c = ')' then some ([.closing], .between)
  else if c = '%' then some ([], .percent)
  else if c ∈ marks then some ([.mark c], .between)
  else none

/-- What the first character behind a finished token gives, with that token before it. -/
def beginBehind (t : Token) (c : Char) : Option (List Token × Mode) :=
  (begin? c).map fun first => (t :: first.1, first.2)

/-- What the next character gives. -/
def Mode.step : Mode → Char → Option (List Token × Mode)
  | .between, c => begin? c
  | .word read, c =>
    if isWordChar c then some ([], .word (read ++ [c]))
    -- a quote here belongs to another kind of text, and so does one behind an ampersand
    else if c = '"' || c = '\'' || c = '&' then none
    else beginBehind (wordToken read) c
  | .name read, c =>
    if c = '"' then some ([], .nameQuote read) else some ([], .name (read ++ [c]))
  | .nameQuote read, c =>
    if c = '"' then some ([], .name (read ++ [c]))
    else beginBehind (.name (String.ofList read)) c
  | .text read, c =>
    if c = '\'' then some ([], .textQuote read) else some ([], .text (read ++ [c]))
  | .textQuote read, c =>
    if c = '\'' then some ([], .text (read ++ [c]))
    else beginBehind (.literal (String.ofList read)) c
  | .percent, c => if c = 's' then some ([.placeholder], .between) else none

/-- The token that ends with the text, if one does. -/
def Mode.finish : Mode → Option (List Token)
  | .between => some []
  | .word read => some [wordToken read]
  | .nameQuote read => some [.name (String.ofList read)]
  | .textQuote read => some [.literal (String.ofList read)]
  | .name _ | .text _ | .percent => none

/-- The tokens that are finished in a text, and what is left unfinished. -/
def scan : Mode → List Char → Option (List Token × Mode)
  | m, [] => some ([], m)
  | m, c :: cs => do
    let (ts, m) ← m.step c
    let (us, m) ← scan m cs
    return (ts ++ us, m)

/-- The tokens of a text. -/
def lex (s : String) : Option (List Token) := do
  let (ts, m) ← scan .between s.toList
  return ts ++ (← m.finish)

/-! ## Cutting piece by piece -/

variable {c : Char} {cs ds : List Char} {m l n : Mode} {ts us : List Token} {s t : String}

theorem scan_cons (hstep : m.step c = some (ts, l)) (hscan : scan l cs = some (us, n)) :
    scan m (c :: cs) = some (ts ++ us, n) := by
  simp [scan, hstep, hscan]

theorem exists_of_scan_cons (h : scan m (c :: cs) = some (ts, n)) :
    ∃ us l vs, m.step c = some (us, l) ∧ scan l cs = some (vs, n) ∧ ts = us ++ vs := by
  simp only [scan, Option.bind_eq_bind, Option.bind_eq_some_iff, Option.pure_def,
    Option.some.injEq, Prod.mk.injEq] at h
  obtain ⟨⟨us, l⟩, hstep, ⟨vs, _⟩, hscan, rfl, rfl⟩ := h
  exact ⟨us, l, vs, hstep, hscan, rfl⟩

theorem scan_append (hfirst : scan m cs = some (ts, l)) (hrest : scan l ds = some (us, n)) :
    scan m (cs ++ ds) = some (ts ++ us, n) := by
  induction cs generalizing m ts with
  | nil =>
      cases hfirst
      exact hrest
  | cons c cs ih =>
      obtain ⟨vs, m', ws, hstep, hscan, rfl⟩ := exists_of_scan_cons hfirst
      rw [List.append_assoc]
      exact scan_cons hstep (ih hscan)

theorem lex_eq_some :
    lex s = some ts ↔ ∃ us m vs, scan .between s.toList = some (us, m) ∧ m.finish = some vs ∧
      ts = us ++ vs := by
  simp only [lex, Option.bind_eq_bind, Option.bind_eq_some_iff, Option.pure_def,
    Option.some.injEq]
  constructor
  · rintro ⟨⟨us, m⟩, hscan, vs, hfinish, rfl⟩
    exact ⟨us, m, vs, hscan, hfinish, rfl⟩
  · rintro ⟨us, m, vs, hscan, hfinish, rfl⟩
    exact ⟨(us, m), hscan, vs, hfinish, rfl⟩

/-- No token goes on with the character, whichever it is. -/
def endsToken (c : Char) : Bool :=
  !isWordChar c && c ≠ '"' && c ≠ '\'' && c ≠ '&'

/-- The text begins where a token before it ends. -/
def Opens (s : String) : Prop :=
  s.toList.head?.any endsToken = true

/-- The text is made of the tokens. -/
def Lexes (s : String) (ts : List Token) : Prop :=
  lex s = some ts

/-- The text is made of the tokens, and what follows it begins another one. -/
def Closed (s : String) (ts : List Token) : Prop :=
  scan .between s.toList = some (ts, .between)

instance : Decidable (Opens s) := inferInstanceAs (Decidable (_ = _))

instance : Decidable (Lexes s ts) := inferInstanceAs (Decidable (_ = _))

instance : Decidable (Closed s ts) := inferInstanceAs (Decidable (_ = _))

theorem Opens.append (h : Opens s) (t : String) : Opens (s ++ t) := by
  unfold Opens at h ⊢
  rw [String.toList_append]
  cases hs : s.toList with
  | nil => simp [hs] at h
  | cons c cs => simpa [hs] using h

/-- A character that ends a token finishes the one before it and begins the next. -/
theorem step_of_endsToken (hfinish : m.finish = some ts) (hc : endsToken c = true) :
    m.step c = (begin? c).map fun first => (ts ++ first.1, first.2) := by
  simp only [endsToken, Bool.and_eq_true, Bool.not_eq_true', decide_eq_true_eq] at hc
  obtain ⟨⟨⟨hword, hname⟩, htext⟩, hand⟩ := hc
  cases m with
  | between =>
      cases hfinish
      simp [Mode.step]
  | word read =>
      cases hfinish
      simp [Mode.step, beginBehind, hword, hname, htext, hand]
  | nameQuote read =>
      cases hfinish
      simp [Mode.step, beginBehind, hname]
  | textQuote read =>
      cases hfinish
      simp [Mode.step, beginBehind, htext]
  | name | text | percent => cases hfinish

theorem Lexes.append (hs : Lexes s ts) (ht : Lexes t us) (hopens : Opens t) :
    Lexes (s ++ t) (ts ++ us) := by
  obtain ⟨firsts, m, pending, hscan, hfinish, rfl⟩ := lex_eq_some.1 hs
  obtain ⟨rests, n, last, hrest, hlast, rfl⟩ := lex_eq_some.1 ht
  unfold Opens at hopens
  cases hchars : t.toList with
  | nil => simp [hchars] at hopens
  | cons c cs =>
      rw [hchars] at hrest hopens
      obtain ⟨vs, l, ws, hstep, hscan', rfl⟩ := exists_of_scan_cons hrest
      -- the first character of the second text finishes the token that the first one ends with
      have hstep' : m.step c = some (pending ++ vs, l) := by
        have hbegin : begin? c = some (vs, l) := hstep
        rw [step_of_endsToken hfinish hopens, hbegin]
        rfl
      refine lex_eq_some.2 ⟨firsts ++ (pending ++ vs ++ ws), n, last, ?_, hlast, ?_⟩
      · rw [String.toList_append, hchars]
        exact scan_append hscan (scan_cons hstep' hscan')
      · simp only [List.append_assoc]

theorem Closed.append (hs : Closed s ts) (ht : Lexes t us) : Lexes (s ++ t) (ts ++ us) := by
  obtain ⟨rests, n, last, hrest, hlast, rfl⟩ := lex_eq_some.1 ht
  refine lex_eq_some.2 ⟨_, n, last, ?_, hlast, (List.append_assoc _ _ _).symm⟩
  rw [String.toList_append]
  exact scan_append hs hrest

/-! ## Names and words -/

/-- The characters of a text with every quote doubled. -/
def doubledChars (q : Char) (s : List Char) : List Char :=
  s.flatMap fun d => if d = q then [d, d] else [d]

theorem toList_identifier (name : String) :
    (identifier name).toList = '"' :: (doubledChars '"' name.toList ++ ['"']) := by
  simp [identifier, doubled, Text.expandChars, doubledChars]

theorem toList_literal (s : String) :
    (literal s).toList = '\'' :: (doubledChars '\'' s.toList ++ ['\'']) := by
  simp [literal, doubled, Text.expandChars, doubledChars]

theorem toList_aliasName (a : Alias) : (aliasName a).toList = 't' :: Nat.toDigits 10 a := by
  simp [aliasName]

theorem isWordChar_of_mem_toDigits {a : Alias} {c : Char} (hc : c ∈ Nat.toDigits 10 a) :
    isWordChar c = true := by
  have hdigit := Nat.isDigit_of_mem_toDigits (b := 10) (n := a) (by decide) (by decide) hc
  simp [isWordChar, Char.isAlphanum, hdigit]

/-- A quoted name is read to its end, since each quote in it stands twice. -/
theorem scan_doubled (read cs : List Char) :
    scan (.name read) (doubledChars '"' cs) = some ([], .name (read ++ cs)) := by
  unfold doubledChars
  induction cs generalizing read with
  | nil => simp [scan]
  | cons d cs ih =>
      have hread : read ++ d :: cs = (read ++ [d]) ++ cs := by simp
      rw [List.flatMap_cons, hread]
      by_cases hd : d = '"'
      · subst hd
        have hstep : (Mode.name read).step '"' = some ([], .nameQuote read) := rfl
        have hquote : (Mode.nameQuote read).step '"' = some ([], .name (read ++ ['"'])) := rfl
        exact scan_cons hstep (scan_cons hquote (ih _))
      · have hstep : (Mode.name read).step d = some ([], .name (read ++ [d])) := by
          rw [Mode.step, if_neg hd]
        rw [if_neg hd]
        exact scan_cons hstep (ih _)

/-- **A quoted name is one token**, whatever the name is. -/
theorem lexes_identifier (s : String) : Lexes (identifier s) [.name s] := by
  refine lex_eq_some.2 ⟨[], .nameQuote s.toList, [.name s], ?_, ?_, rfl⟩
  · have hend : scan (.name s.toList) ['"'] = some ([], .nameQuote s.toList) := rfl
    rw [toList_identifier]
    have hbegin : Mode.between.step '"' = some ([], .name []) := rfl
    exact scan_cons hbegin (scan_append (scan_doubled [] _) hend)
  · simp [Mode.finish]

theorem scan_word {read : List Char} (h : ∀ c ∈ cs, isWordChar c = true) :
    scan (.word read) cs = some ([], .word (read ++ cs)) := by
  induction cs generalizing read with
  | nil => simp [scan]
  | cons c cs ih =>
      obtain ⟨hc, hcs⟩ := List.forall_mem_cons.1 h
      have hstep : (Mode.word read).step c = some ([], .word (read ++ [c])) := by
        rw [Mode.step, if_pos hc]
      have hread : read ++ c :: cs = (read ++ [c]) ++ cs := by simp
      rw [hread]
      exact scan_cons hstep (ih hcs)

/-- No keyword begins as the names of numbered tables do. -/
theorem wordToken_table (cs : List Char) :
    wordToken ('t' :: cs) = .word (String.ofList ('t' :: cs)) := by
  have hkeywords : ∀ entry ∈ keywords, entry.1.toList.head? ≠ some 'T' := by decide
  have hnone :
      (keywords.find? fun entry => entry.1.toList = ('t' :: cs).map Char.toUpper) = none := by
    rw [List.find?_eq_none]
    intro entry hentry hequal
    refine hkeywords entry hentry ?_
    rw [of_decide_eq_true hequal]
    rfl
  rw [wordToken, hnone]

theorem lexes_aliasName (a : Alias) : Lexes (aliasName a) [.word (aliasName a)] := by
  refine lex_eq_some.2 ⟨[], .word (aliasName a).toList, _, ?_, ?_, rfl⟩
  · have hbegin : Mode.between.step 't' = some ([], .word ['t']) := by decide
    rw [toList_aliasName]
    exact scan_cons hbegin (scan_word fun _ hc => isWordChar_of_mem_toDigits hc)
  · rw [Mode.finish, toList_aliasName, wordToken_table, ← toList_aliasName, String.ofList_toList]

end Warden.Sql
