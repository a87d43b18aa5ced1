import Warden.Proofs.Sql.Lexing

/-! # Reading what stands between quotes

A name and a text are written with every quote in them doubled. Read from the left, they end at the
first quote that no other one follows (**`untilQuote`**), and two quotes in a row are one of their
own. A reading says what stood between the quotes and what is left behind them, and it gives just
what was written (**`readQuoted?_eq_some_iff`**): the text with its quotes goes before what is left,
and that does not begin with one more quote.

All characters are alike here but the quote, so a backslash between single quotes is a character of
the text. Whether the database takes a name that has been read, which may be empty or long, is no
matter of reading it.

The **outline** of a whole text shows its characters outside of quotes one by one, and each quoted
name or text as one piece. A quote right behind a word or an ampersand would begin a text with rules
of its own, and so would some characters that no statement has; a text with one of these has no
outline. Outlines are put together where the second text begins with no quote, or the first one ends
with a character behind which a quote can stand (**`outline?_append`**). -/

namespace Warden.Sql

variable {q c : Char} {cs ds s rest : List Char}

/-! ## One quoted text -/

/-- The text up to the quote that ends it, and what is left behind that quote. -/
def untilQuote (q : Char) : List Char → Option (List Char × List Char)
  | [] => none
  | [c] => if c = q then some ([], []) else none
  | c :: d :: rest =>
    if c = q then
      if d = q then (untilQuote q rest).map fun found => (q :: found.1, found.2)
      else some ([], d :: rest)
    else (untilQuote q (d :: rest)).map fun found => (c :: found.1, found.2)

theorem untilQuote_of_ne (hc : c ≠ q) (cs : List Char) :
    untilQuote q (c :: cs) = (untilQuote q cs).map fun found => (c :: found.1, found.2) := by
  cases cs with
  | nil => simp [untilQuote, hc]
  | cons d cs => rw [untilQuote, if_neg hc]

theorem untilQuote_twice (cs : List Char) :
    untilQuote q (q :: q :: cs) = (untilQuote q cs).map fun found => (q :: found.1, found.2) := by
  rw [untilQuote, if_pos rfl, if_pos rfl]

theorem untilQuote_end (h : rest.head? ≠ some q) :
    untilQuote q (q :: rest) = some ([], rest) := by
  cases rest with
  | nil => rw [untilQuote, if_pos rfl]
  | cons d rest =>
      have hd : d ≠ q := fun heq => h (congrArg some heq)
      rw [untilQuote, if_pos rfl, if_neg hd]

/-- Doubled quotes are read as the text's own, up to the quote that stands alone. -/
theorem untilQuote_doubledChars (s : List Char) (h : rest.head? ≠ some q) :
    untilQuote q (doubledChars q s ++ q :: rest) = some (s, rest) := by
  induction s with
  | nil => exact untilQuote_end h
  | cons d s ih =>
      by_cases hd : d = q
      · subst hd
        have hchars : doubledChars d (d :: s) = d :: d :: doubledChars d s := by
          simp [doubledChars]
        rw [hchars, List.cons_append, List.cons_append, untilQuote_twice, ih]
        rfl
      · have hchars : doubledChars q (d :: s) = d :: doubledChars q s := by
          simp [doubledChars, hd]
        rw [hchars, List.cons_append, untilQuote_of_ne hd, ih]
        rfl

theorem exists_of_map_cons {found? : Option (List Char × List Char)}
    (h : (found?.map fun found => (c :: found.1, found.2)) = some (s, rest)) :
    ∃ s', found? = some (s', rest) ∧ s = c :: s' := by
  obtain ⟨⟨s', left⟩, hfound, hpair⟩ := Option.map_eq_some_iff.1 h
  cases hpair
  exact ⟨s', hfound, rfl⟩

/-- Nothing else is read. -/
theorem eq_of_untilQuote (h : untilQuote q cs = some (s, rest)) :
    cs = doubledChars q s ++ q :: rest ∧ rest.head? ≠ some q := by
  fun_induction untilQuote q cs generalizing s with
  | case1 | case3 => cases h
  | case2 =>
      cases h
      exact ⟨rfl, by simp⟩
  | case4 _ ih =>
      obtain ⟨s', hfound, rfl⟩ := exists_of_map_cons h
      obtain ⟨rfl, hrest⟩ := ih hfound
      exact ⟨by simp [doubledChars], hrest⟩
  | case5 d _ hd =>
      cases h
      exact ⟨rfl, fun heq => hd (Option.some.inj heq)⟩
  | case6 c _ _ hc ih =>
      obtain ⟨s', hfound, rfl⟩ := exists_of_map_cons h
      obtain ⟨htail, hrest⟩ := ih hfound
      exact ⟨by simp [htail, doubledChars, hc], hrest⟩

/-- Reads the quoted text that the characters begin with: what stands between the quotes, and what
is left behind them. -/
def readQuoted? (q : Char) : List Char → Option (List Char × List Char)
  | [] => none
  | c :: cs => if c = q then untilQuote q cs else none

/-- **What is read from a quote on**: a text whose quotes are doubled, up to the quote behind it. -/
theorem readQuoted?_eq_some_iff : readQuoted? q cs = some (s, rest) ↔
    cs = q :: (doubledChars q s ++ q :: rest) ∧ rest.head? ≠ some q := by
  constructor
  · intro h
    cases cs with
    | nil => cases h
    | cons c cs =>
        rw [readQuoted?] at h
        by_cases hc : c = q
        · rw [if_pos hc] at h
          obtain ⟨rfl, hrest⟩ := eq_of_untilQuote h
          exact ⟨by rw [hc], hrest⟩
        · rw [if_neg hc] at h
          cases h
  · rintro ⟨rfl, hrest⟩
    rw [readQuoted?, if_pos rfl]
    exact untilQuote_doubledChars s hrest

/-- What follows can be longer, unless a quote gets behind the last one. -/
theorem untilQuote_append (h : untilQuote q cs = some (s, rest))
    (hends : (rest ++ ds).head? ≠ some q) : untilQuote q (cs ++ ds) = some (s, rest ++ ds) := by
  obtain ⟨rfl, -⟩ := eq_of_untilQuote h
  rw [List.append_assoc, List.cons_append]
  exact untilQuote_doubledChars s hends

/-! ## Names and texts -/

/-- Reads the text between quotes that a text begins with, and what is left behind it. -/
def readBetween? (q : Char) (text : String) : Option (String × String) :=
  (readQuoted? q text.toList).map fun found => (String.ofList found.1, String.ofList found.2)

/-- Reads the quoted name that a text begins with, and what is left behind it. -/
def readIdentifier? (text : String) : Option (String × String) :=
  readBetween? '"' text

/-- Reads the quoted text that a text begins with, and what is left behind it. -/
def readLiteral? (text : String) : Option (String × String) :=
  readBetween? '\'' text

section Strings

variable {text s rest : String}

theorem readBetween?_eq_some_iff {write : String → String}
    (hwrite : (write s).toList = q :: (doubledChars q s.toList ++ [q])) :
    readBetween? q text = some (s, rest) ↔
      text = write s ++ rest ∧ rest.toList.head? ≠ some q := by
  have hchars : text = write s ++ rest ↔
      text.toList = q :: (doubledChars q s.toList ++ q :: rest.toList) := by
    rw [← String.toList_inj, String.toList_append, hwrite]
    simp
  rw [hchars, ← readQuoted?_eq_some_iff, readBetween?, Option.map_eq_some_iff]
  constructor
  · rintro ⟨⟨s', rest'⟩, hread, hpair⟩
    cases hpair
    rw [String.toList_ofList, String.toList_ofList]
    exact hread
  · intro hread
    exact ⟨_, hread, by rw [String.ofList_toList, String.ofList_toList]⟩

/-- What can be read back is written differently if it is different. -/
theorem injective_of_quoted {write : String → String}
    (hwrite : ∀ s, (write s).toList = q :: (doubledChars q s.toList ++ [q])) :
    Function.Injective write := by
  intro a b h
  have hread (s : String) : readBetween? q (write s) = some (s, "") :=
    (readBetween?_eq_some_iff (hwrite s)).2 ⟨(String.append_empty ..).symm, by simp⟩
  have hsame : some (a, "") = some (b, "") := by
    rw [← hread a, ← hread b, h]
  exact congrArg Prod.fst (Option.some.inj hsame)

/-- A quoted name is read as itself, whatever it is and whatever follows it but another quote. -/
theorem readIdentifier?_eq_some_iff : readIdentifier? text = some (s, rest) ↔
    text = identifier s ++ rest ∧ rest.toList.head? ≠ some '"' :=
  readBetween?_eq_some_iff (toList_identifier s)

/-- So is a quoted text. -/
theorem readLiteral?_eq_some_iff : readLiteral? text = some (s, rest) ↔
    text = literal s ++ rest ∧ rest.toList.head? ≠ some '\'' :=
  readBetween?_eq_some_iff (toList_literal s)

end Strings

theorem identifier_injective : Function.Injective identifier :=
  injective_of_quoted toList_identifier

theorem literal_injective : Function.Injective literal :=
  injective_of_quoted toList_literal

/-! ## The outline of a text -/

/-- A stretch of a text: one character outside of quotes, or all that stands between two of them. -/
inductive Stretch where
  /-- A character. -/
  | plain (c : Char)
  /-- A quoted name. -/
  | name (s : String)
  /-- A quoted text. -/
  | literal (s : String)
deriving DecidableEq

/-- What stands between two quotes. -/
def Stretch.between (q : Char) (s : List Char) : Stretch :=
  if q = '"' then .name (String.ofList s) else .literal (String.ofList s)

/-- The character begins a name or a text. -/
def isQuote (c : Char) : Bool :=
  c = '"' || c = '\''

/-- The character has a place in statements outside of quotes. No comment begins with such
characters, and no text in quotes of another kind. -/
def isPlain (c : Char) : Bool :=
  isWordChar c || c.isWhitespace || c = '(' || c = ')' || c = '*' || c = '%' || c ∈ marks

/-- A quote behind the character begins a name or a text without rules of its own. -/
def leavesFree (c : Char) : Bool :=
  !isWordChar c && c ≠ '&' && !isQuote c

/-- The outline of a text; it says whether a quote may begin it. -/
def outlineFrom (free : Bool) : List Char → Option (List Stretch)
  | [] => some []
  | c :: cs =>
    if isQuote c then
      if free then
        match _h : untilQuote c cs with
        | some (s, rest) => (outlineFrom true rest).map (.between c s :: ·)
        | none => none
      else none
    else if isPlain c then (outlineFrom (leavesFree c) cs).map (.plain c :: ·)
    else none
termination_by cs => cs.length
decreasing_by
  · have hlength := congrArg List.length (eq_of_untilQuote _h).1
    simp only [List.length_append, List.length_cons] at hlength ⊢
    omega
  · exact Nat.lt_succ_self _

/-- The outline of a text. -/
def outline? (s : String) : Option (List Stretch) :=
  outlineFrom true s.toList

example : outline? "t0.\"a\"\"b\" = ''" =
    some [.plain 't', .plain '0', .plain '.', .name "a\"b", .plain ' ', .plain '=', .plain ' ',
      .literal ""] := by
  decide +kernel

/-- The characters begin with one, and it is no quote. -/
def opensPlain (cs : List Char) : Bool :=
  cs.head?.any fun c => !isQuote c

/-- A quote may stand behind the characters, if it may stand before them in case there are none. -/
def staysFree (free : Bool) (cs : List Char) : Bool :=
  match cs.getLast? with
  | none => free
  | some c => leavesFree c

variable {free : Bool} {ps qs : List Stretch}

/-- Only a quote depends on what stands before it. -/
theorem outlineFrom_of_opensPlain (h : opensPlain ds = true) :
    outlineFrom free ds = outlineFrom true ds := by
  cases ds with
  | nil => cases h
  | cons d ds =>
      have hd : isQuote d = false := by simpa [opensPlain] using h
      rw [outlineFrom, outlineFrom]
      simp only [hd, Bool.false_eq_true, if_false]

/-- No quote has a place of its own outside of quotes. -/
theorem isQuote_of_isPlain (h : isPlain c = true) : isQuote c = false := by
  by_cases hq : isQuote c = true
  · have hcases : c = '"' ∨ c = '\'' := by simpa [isQuote] using hq
    rcases hcases with rfl | rfl
    · exact absurd h (by decide)
    · exact absurd h (by decide)
  · simpa using hq

theorem outlineFrom_quoted (hq : isQuote c = true) (h : untilQuote c cs = some (s, rest)) :
    outlineFrom true (c :: cs) = (outlineFrom true rest).map (.between c s :: ·) := by
  rw [outlineFrom, if_pos hq, if_pos rfl]
  split
  · next found rest' hfound =>
      rw [h] at hfound
      cases hfound
      rfl
  · next hnone =>
      rw [h] at hnone
      cases hnone

theorem outlineFrom_plain (h : isPlain c = true) :
    outlineFrom free (c :: cs) = (outlineFrom (leavesFree c) cs).map (.plain c :: ·) := by
  rw [outlineFrom, isQuote_of_isPlain h, if_neg Bool.false_ne_true, if_pos h]

/-- Characters outside of quotes are shown as they are. -/
theorem outlineFrom_of_isPlain (h : ∀ c ∈ cs, isPlain c = true) :
    outlineFrom free cs = some (cs.map .plain) := by
  induction cs generalizing free with
  | nil => rw [outlineFrom, List.map_nil]
  | cons c cs ih =>
      obtain ⟨hc, hcs⟩ := List.forall_mem_cons.1 h
      rw [outlineFrom_plain hc, ih hcs]
      rfl

theorem staysFree_append (hds : ds ≠ []) : staysFree free (cs ++ ds) = staysFree true ds := by
  obtain ⟨d, hd⟩ : ∃ d, ds.getLast? = some d := ⟨_, List.getLast?_eq_some_getLast hds⟩
  simp [staysFree, List.getLast?_append, hd]

theorem head?_ne_of_opensPlain (hq : isQuote c = true) (h : opensPlain ds = true) :
    ds.head? ≠ some c := by
  intro hhead
  rw [opensPlain, hhead, Option.any_some, hq] at h
  cases h

/-- Where a text is read, what may follow the whole may follow what is left, and no quote gets
behind the one that ends the text. -/
theorem meets_of_untilQuote (hq : isQuote c = true) (h : untilQuote c cs = some (s, rest))
    (hmeet : opensPlain ds = true ∨ staysFree true (c :: cs) = true) :
    (rest ++ ds).head? ≠ some c ∧ (opensPlain ds = true ∨ staysFree true rest = true) := by
  obtain ⟨rfl, hrest⟩ := eq_of_untilQuote h
  by_cases hnil : rest = []
  · -- the text ends with its quote, so what follows it has to begin with another character
    subst hnil
    have hstop : staysFree true (c :: (doubledChars c s ++ [c])) = false := by
      have hlast : staysFree true ((c :: doubledChars c s) ++ [c]) = leavesFree c :=
        staysFree_append (List.cons_ne_nil c [])
      simpa [leavesFree, hq] using hlast
    rw [hstop] at hmeet
    have hopens := hmeet.resolve_right Bool.false_ne_true
    exact ⟨head?_ne_of_opensPlain hq hopens, .inl hopens⟩
  · have hlast : staysFree true (c :: (doubledChars c s ++ c :: rest)) = staysFree true rest := by
      have hparts : c :: (doubledChars c s ++ c :: rest) =
          (c :: (doubledChars c s ++ [c])) ++ rest := by simp
      rw [hparts, staysFree_append hnil]
    rw [hlast] at hmeet
    exact ⟨by rwa [List.head?_append_of_ne_nil _ hnil], hmeet⟩

/-- Outlines are put together, unless the second text begins with a quote that has no place behind
the first one. -/
theorem outlineFrom_append (h : outlineFrom free cs = some ps) (h' : outlineFrom true ds = some qs)
    (hmeet : opensPlain ds = true ∨ staysFree free cs = true) :
    outlineFrom free (cs ++ ds) = some (ps ++ qs) := by
  fun_induction outlineFrom free cs generalizing ps with
  | case1 free =>
      cases h
      rw [List.nil_append, List.nil_append]
      rcases hmeet with hopens | hfree
      · rw [outlineFrom_of_opensPlain hopens]
        exact h'
      · rw [show free = true from hfree]
        exact h'
  | case2 c cs hq s rest hread ih =>
      obtain ⟨ps, hrest, rfl⟩ := Option.map_eq_some_iff.1 h
      obtain ⟨hends, hmeet⟩ := meets_of_untilQuote hq hread hmeet
      have hwhole := untilQuote_append hread hends
      rw [List.cons_append, outlineFrom_quoted hq hwhole, ih hrest hmeet]
      rfl
  | case5 free c cs hq hplain ih =>
      obtain ⟨ps, hrest, rfl⟩ := Option.map_eq_some_iff.1 h
      have hmeet : opensPlain ds = true ∨ staysFree (leavesFree c) cs = true := by
        refine hmeet.imp_right fun hfree => ?_
        by_cases hnil : cs = []
        · subst hnil
          exact hfree
        · rw [← List.singleton_append, staysFree_append hnil] at hfree
          rwa [← List.nil_append cs, staysFree_append hnil]
      rw [List.cons_append, outlineFrom_plain hplain, ih hrest hmeet]
      rfl
  | case3 | case4 | case6 => cases h

/-! ## Outlines of texts -/

/-- The text begins with a character that is no quote. -/
def OpensPlain (s : String) : Prop :=
  opensPlain s.toList = true

/-- A quote may stand behind the text. -/
def StaysFree (s : String) : Prop :=
  staysFree true s.toList = true

instance (s : String) : Decidable (OpensPlain s) := inferInstanceAs (Decidable (_ = _))

instance (s : String) : Decidable (StaysFree s) := inferInstanceAs (Decidable (_ = _))

section Texts

variable {s t : String}

theorem OpensPlain.append (h : OpensPlain s) (t : String) : OpensPlain (s ++ t) := by
  unfold OpensPlain opensPlain at h ⊢
  rw [String.toList_append]
  cases hs : s.toList with
  | nil => simp [hs] at h
  | cons c cs => simpa [hs] using h

theorem outline?_append (hs : outline? s = some ps) (ht : outline? t = some qs)
    (hmeet : OpensPlain t ∨ StaysFree s) : outline? (s ++ t) = some (ps ++ qs) := by
  rw [outline?, String.toList_append]
  exact outlineFrom_append hs ht hmeet

/-- **A quoted name is one stretch**, whatever the name is. -/
theorem outline?_identifier (name : String) : outline? (identifier name) = some [.name name] := by
  have hread : untilQuote '"' _ = some (name.toList, []) :=
    untilQuote_doubledChars name.toList (by simp)
  rw [outline?, toList_identifier, outlineFrom_quoted (by decide) hread]
  simp [outlineFrom, Stretch.between]

/-- So is a quoted text. -/
theorem outline?_literal (s : String) : outline? (literal s) = some [.literal s] := by
  have hread : untilQuote '\'' _ = some (s.toList, []) :=
    untilQuote_doubledChars s.toList (by simp)
  rw [outline?, toList_literal, outlineFrom_quoted (by decide) hread]
  simp [outlineFrom, Stretch.between]

theorem outline?_of_isPlain (h : ∀ c ∈ s.toList, isPlain c = true) :
    outline? s = some (s.toList.map .plain) :=
  outlineFrom_of_isPlain h

end Texts

end Warden.Sql
