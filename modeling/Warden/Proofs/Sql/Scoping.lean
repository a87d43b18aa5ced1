import Mathlib.Data.List.Perm.Basic
import Warden.Proofs.Sql.Lexing

/-! # Names of tables in the text of a statement

A bare name behind `AS` is given to a table, and a bare name before a point is that of the table
whose column is meant; labels are written with quotes, so they are neither. **`signs?`** finds these
names in a text, together with the parentheses, and **`blocks?`** nests them as the parentheses
stand.

A name that a table is given is known in the parentheses that the table stands in, and in all others
inside of these (**`Block.Scoped`**). What a part of a text gives to this is said by **`Involves`**:
which names it introduces, and on which names from outside it relies. Parts are put together one
after another (`Involves.append`) and in parentheses (`Involves.group`). -/

namespace Warden.Sql.Scoping

/-! ## Signs -/

/-- What a text says about tables. -/
inductive Sign where
  /-- An opening parenthesis. -/
  | opening
  /-- A closing parenthesis. -/
  | closing
  /-- A table is given the name. -/
  | introduces (name : String)
  /-- A column is one of the table with the name. -/
  | uses (name : String)
deriving DecidableEq

/-- Where the reading of a text stands. -/
inductive Place where
  /-- Between words; a name for a table may be expected. -/
  | between (expected : Bool)
  /-- In a word. -/
  | word (expected : Bool) (read : List Char)
  /-- Between quotes. -/
  | quoted (quote : Char)
deriving DecidableEq

/-- The word behind which a table is given a name. -/
def asWord : List Char := ['A', 'S']

/-- What a character gives that does not go on with a word. -/
def begin (expected : Bool) (c : Char) : List Sign × Place :=
  if c.isWhitespace then ([], .between expected)
  else if isWordChar c then ([], .word expected [c])
  else if c = '"' ∨ c = '\'' then ([], .quoted c)
  else if c = '(' then ([.opening], .between false)
  else if c = ')' then ([.closing], .between false)
  else ([], .between false)

/-- What a finished word says. -/
def wordSigns (expected : Bool) (read : List Char) (followed : Bool) : List Sign :=
  if expected then [.introduces (String.ofList read)]
  else if followed then [.uses (String.ofList read)]
  else []

/-- What the next character gives. -/
def Place.step : Place → Char → List Sign × Place
  | .between expected, c => begin expected c
  | .word expected read, c =>
    if isWordChar c then ([], .word expected (read ++ [c]))
    else
      let first := begin (read = asWord) c
      (wordSigns expected read (c = '.') ++ first.1, first.2)
  | .quoted quote, c => if c = quote then ([], .between false) else ([], .quoted quote)

/-- What the end of the text gives; it may not stand where a name or a quote is missing. -/
def Place.finish : Place → Option (List Sign)
  | .between expected => if expected then none else some []
  | .word expected read => if read = asWord then none else some (wordSigns expected read false)
  | .quoted _ => none

/-- The signs in a text, and where its reading ends. -/
def scan : Place → List Char → List Sign × Place
  | p, [] => ([], p)
  | p, c :: cs =>
    let first := p.step c
    let rest := scan first.2 cs
    (first.1 ++ rest.1, rest.2)

/-- The signs in a whole text. -/
def signs? (s : String) : Option (List Sign) :=
  let found := scan (.between false) s.toList
  found.2.finish.map (found.1 ++ ·)

/-! ## Blocks -/

/-- What a text says about tables, with its parentheses nested. -/
inductive Block where
  /-- A table is given the name. -/
  | introduces (name : String)
  /-- A column is one of the table with the name. -/
  | uses (name : String)
  /-- Something stands in parentheses. -/
  | group (blocks : List Block)

namespace Block

mutual

/-- The signs of a block. -/
def signs : Block → List Sign
  | introduces name => [.introduces name]
  | uses name => [.uses name]
  | group bs => .opening :: (signsAll bs ++ [.closing])

/-- The signs of several blocks. -/
def signsAll : List Block → List Sign
  | [] => []
  | b :: bs => signs b ++ signsAll bs

end

mutual

/-- The names that tables are given in a block, at any depth. -/
def introduced : Block → List String
  | introduces name => [name]
  | uses _ => []
  | group bs => introducedAll bs

/-- The names that tables are given in several blocks, at any depth. -/
def introducedAll : List Block → List String
  | [] => []
  | b :: bs => introduced b ++ introducedAll bs

end

/-- The name that a table is given in a block, outside of parentheses. -/
def own : Block → List String
  | introduces name => [name]
  | _ => []

/-- The names that tables are given in several blocks, outside of parentheses. -/
def ownAll (bs : List Block) : List String :=
  bs.flatMap own

/-- Every name that a column is used with is known: it is one of these names, or a table is given it
directly in parentheses around the column. -/
inductive Scoped : List String → Block → Prop where
  /-- Nothing is used. -/
  | introduces {known : List String} {name : String} : Scoped known (.introduces name)
  /-- The name is known. -/
  | uses {known : List String} {name : String} (h : name ∈ known) : Scoped known (.uses name)
  /-- In parentheses the names given directly in them are known as well. -/
  | group {known : List String} {bs : List Block} (h : ∀ b ∈ bs, Scoped (ownAll bs ++ known) b) :
      Scoped known (.group bs)

end Block

open Block

/-- Nests signs as their parentheses stand. The blocks found before each of the open parentheses are
kept, the innermost first. -/
def nest : (around : List (List Block)) → (found : List Block) → List Sign → Option (List Block)
  | [], found, [] => some found
  | _ :: _, _, [] => none
  | around, found, .opening :: signs => nest (found :: around) [] signs
  | [], _, .closing :: _ => none
  | before :: around, found, .closing :: signs => nest around (before ++ [.group found]) signs
  | around, found, .introduces name :: signs => nest around (found ++ [.introduces name]) signs
  | around, found, .uses name :: signs => nest around (found ++ [.uses name]) signs

/-- The blocks in a text. -/
def blocks? (s : String) : Option (List Block) := do
  nest [] [] (← signs? s)

example : blocks? "EXISTS (SELECT 1 FROM \"a\" AS t1 WHERE t1.\"id\" = t0.\"a_id\")" =
    some [.group [.introduces "t1", .uses "t1", .uses "t0"]] := by
  rfl

mutual

/-- The signs of a block are nested as they stand in it. -/
theorem nest_signs (around : List (List Block)) (found : List Block) (rest : List Sign) :
    ∀ b : Block, nest around found (b.signs ++ rest) = nest around (found ++ [b]) rest
  | .introduces name => by cases around <;> rfl
  | .uses name => by cases around <;> rfl
  | .group bs => by
      have hinner := nest_signsAll (found :: around) [] (.closing :: rest) bs
      show nest around found (.opening :: (signsAll bs ++ [.closing] ++ rest)) = _
      rw [List.append_assoc]
      cases around <;> exact hinner

theorem nest_signsAll (around : List (List Block)) (found : List Block) (rest : List Sign) :
    ∀ bs : List Block, nest around found (signsAll bs ++ rest) = nest around (found ++ bs) rest
  | [] => by rw [signsAll, List.nil_append, List.append_nil]
  | b :: bs => by
      rw [signsAll, List.append_assoc, nest_signs around found _ b,
        nest_signsAll around _ rest bs, List.append_assoc, List.singleton_append]

end

theorem blocks?_of_signs? {s : String} {bs : List Block} (h : signs? s = some (signsAll bs)) :
    blocks? s = some bs := by
  have hnest := nest_signsAll [] [] [] bs
  rw [List.append_nil] at hnest
  rw [blocks?, h]
  exact hnest

/-! ## Reading piece by piece -/

variable {s t : String} {ss ts : List Sign} {p q r : Place} {c : Char} {cs ds : List Char}

theorem scan_append : scan p (cs ++ ds) =
    ((scan p cs).1 ++ (scan (scan p cs).2 ds).1, (scan (scan p cs).2 ds).2) := by
  induction cs generalizing p with
  | nil => rfl
  | cons c cs ih => simp only [List.cons_append, scan, ih, List.append_assoc]

/-- The character ends a word before it and makes no column of it. -/
def endsWord (c : Char) : Bool :=
  !isWordChar c && c ≠ '.'

/-- The text begins where a word before it ends. -/
def Apart (s : String) : Prop :=
  s.toList.head?.any endsWord = true

/-- The text has these signs. -/
def Reads (s : String) (ss : List Sign) : Prop :=
  signs? s = some ss

/-- The text has these signs, and nothing is expected behind it. -/
def Leads (s : String) (ss : List Sign) : Prop :=
  scan (.between false) s.toList = (ss, .between false)

/-- The text has these signs, also where it stands behind a word. -/
structure Trails (s : String) (ss : List Sign) : Prop where
  /-- It ends a word before it. -/
  apart : Apart s
  /-- It has the signs. -/
  reads : Reads s ss

instance : Decidable (Apart s) := inferInstanceAs (Decidable (_ = _))

instance : Decidable (Reads s ss) := inferInstanceAs (Decidable (_ = _))

instance : Decidable (Leads s ss) := inferInstanceAs (Decidable (_ = _))

instance : Decidable (Trails s ss) :=
  decidable_of_iff (Apart s ∧ Reads s ss) ⟨fun h => ⟨h.1, h.2⟩, fun h => ⟨h.1, h.2⟩⟩

theorem Apart.append (h : Apart s) (t : String) : Apart (s ++ t) := by
  unfold Apart at h ⊢
  rw [String.toList_append]
  cases hs : s.toList with
  | nil => simp [hs] at h
  | cons c cs => simpa [hs] using h

theorem reads_iff : Reads s ss ↔
    ∃ pending, (scan (.between false) s.toList).2.finish = some pending ∧
      ss = (scan (.between false) s.toList).1 ++ pending := by
  rw [Reads, signs?, Option.map_eq_some_iff]
  constructor
  · rintro ⟨pending, hpending, rfl⟩
    exact ⟨pending, hpending, rfl⟩
  · rintro ⟨pending, hpending, rfl⟩
    exact ⟨pending, hpending, rfl⟩

theorem Leads.reads (h : Leads s ss) : Reads s ss := by
  rw [reads_iff, show scan (.between false) s.toList = (ss, .between false) from h]
  exact ⟨[], rfl, (List.append_nil ss).symm⟩

/-- Where a word ends, what follows is read as at the beginning. -/
theorem step_of_endsWord {pending : List Sign} (hfinish : p.finish = some pending)
    (hc : endsWord c = true) : p.step c = (pending ++ (begin false c).1, (begin false c).2) := by
  simp only [endsWord, Bool.and_eq_true, Bool.not_eq_true', decide_eq_true_eq] at hc
  obtain ⟨hword, hpoint⟩ := hc
  cases p with
  | between expected =>
      cases expected with
      | true => cases hfinish
      | false =>
          cases hfinish
          rfl
  | word expected read =>
      rw [Place.finish] at hfinish
      by_cases has : read = asWord
      · rw [if_pos has] at hfinish
        cases hfinish
      · rw [if_neg has] at hfinish
        cases hfinish
        simp [Place.step, hword, hpoint, has]
  | quoted quote => cases hfinish

/-- A text that ends words is read on from where another one ends. -/
theorem Reads.append (hs : Reads s ss) (ht : Trails t ts) : Reads (s ++ t) (ss ++ ts) := by
  obtain ⟨pending, hpending, rfl⟩ := reads_iff.1 hs
  obtain ⟨last, hlast, rfl⟩ := reads_iff.1 ht.reads
  have hapart := ht.apart
  unfold Apart at hapart
  cases hchars : t.toList with
  | nil => simp [hchars] at hapart
  | cons c cs =>
      rw [hchars] at hapart hlast
      have hstep := step_of_endsWord hpending hapart
      rw [reads_iff, String.toList_append, scan_append, hchars, scan, hstep]
      refine ⟨last, hlast, ?_⟩
      simp only [scan, Place.step, List.append_assoc]

/-- A text after which nothing is expected is read before any other. -/
theorem Leads.append (hs : Leads s ss) (ht : Reads t ts) : Reads (s ++ t) (ss ++ ts) := by
  obtain ⟨last, hlast, rfl⟩ := reads_iff.1 ht
  rw [reads_iff, String.toList_append, scan_append,
    show scan (.between false) s.toList = (ss, .between false) from hs]
  exact ⟨last, hlast, (List.append_assoc _ _ _).symm⟩

theorem Leads.append_leads (hs : Leads s ss) (ht : Leads t ts) : Leads (s ++ t) (ss ++ ts) := by
  unfold Leads at hs ht ⊢
  rw [String.toList_append, scan_append, hs, ht]

/-! ## Names -/

/-- Between quotes there are no signs, since each quote in the text stands twice. -/
theorem scan_doubled (quote : Char) (hquote : quote = '"' ∨ quote = '\'') (cs : List Char) :
    scan (.quoted quote) (doubledChars quote cs) = ([], .quoted quote) := by
  unfold doubledChars
  induction cs with
  | nil => rfl
  | cons d cs ih =>
      rw [List.flatMap_cons, scan_append]
      have hfirst : scan (.quoted quote) (if d = quote then [d, d] else [d]) =
          ([], .quoted quote) := by
        by_cases hd : d = quote
        · subst hd
          rcases hquote with rfl | rfl
          · decide
          · decide
        · simp [scan, Place.step, hd]
      rw [hfirst, ih]
      rfl

/-- **A quoted name has no signs**, whatever the name is, and is no name of a table. -/
theorem scan_identifier (expected : Bool) (name : String) :
    scan (.between expected) (identifier name).toList = ([], .between false) := by
  have hbegin : (Place.between expected).step '"' = ([], .quoted '"') := by
    cases expected <;> decide
  rw [toList_identifier, scan, hbegin, scan_append, scan_doubled '"' (.inl rfl)]
  rfl

theorem leads_identifier (name : String) : Leads (identifier name) [] :=
  scan_identifier false name

/-- A quoted text has no signs. -/
theorem leads_literal (text : String) : Leads (literal text) [] := by
  have hbegin : (Place.between false).step '\'' = ([], .quoted '\'') := by decide
  rw [Leads, toList_literal, scan, hbegin, scan_append, scan_doubled '\'' (.inr rfl)]
  rfl

theorem scan_word {expected : Bool} {read : List Char} (h : ∀ c ∈ cs, isWordChar c = true) :
    scan (.word expected read) cs = ([], .word expected (read ++ cs)) := by
  induction cs generalizing read with
  | nil => simp [scan]
  | cons c cs ih =>
      obtain ⟨hc, hcs⟩ := List.forall_mem_cons.1 h
      have hstep : (Place.word expected read).step c = ([], .word expected (read ++ [c])) := by
        rw [Place.step, if_pos hc]
      rw [scan, hstep, ih hcs, List.append_assoc]
      rfl

/-- The name of a numbered table is one word. -/
theorem scan_aliasName (expected : Bool) (a : Alias) :
    scan (.between expected) (aliasName a).toList =
      ([], .word expected (aliasName a).toList) := by
  have hbegin : (Place.between expected).step 't' = ([], .word expected ['t']) := by
    cases expected <;> decide
  rw [toList_aliasName, scan, hbegin, scan_word fun _ hc => isWordChar_of_mem_toDigits hc]
  rfl

theorem toList_aliasName_ne (a : Alias) : (aliasName a).toList ≠ asWord := by
  intro h
  rw [toList_aliasName] at h
  cases h

/-- A column is one of its table. -/
theorem leads_column (col : Column) : Leads col.sql [.uses (aliasName col.tableAlias)] := by
  have hpoint : (Place.word false (aliasName col.tableAlias).toList).step '.' =
      ([.uses (aliasName col.tableAlias)], .between false) := by
    have hbegin (b : Bool) : begin b '.' = ([], .between false) := by
      cases b <;> decide
    have hword : isWordChar '.' = false := by decide
    simp [Place.step, hword, hbegin, wordSigns]
  have hchars : col.sql.toList =
      (aliasName col.tableAlias).toList ++ ('.' :: (identifier col.name).toList) := by
    simp [Column.sql]
  rw [Leads, hchars, scan_append, scan_aliasName, scan, hpoint, scan_identifier]
  rfl

/-- A table is given its name. -/
theorem reads_tableSql (table : String) (a : Alias) :
    Reads (tableSql table a) [.introduces (aliasName a)] := by
  have has : scan (.between false) " AS ".toList = ([], .between true) := by decide
  have hscan : scan (.between false) (tableSql table a).toList =
      ([], .word true (aliasName a).toList) := by
    rw [tableSql, String.toList_append, String.toList_append, scan_append, scan_append,
      scan_identifier, has, scan_aliasName]
    rfl
  rw [reads_iff, hscan]
  refine ⟨[.introduces (aliasName a)], ?_, rfl⟩
  rw [Place.finish, if_neg (toList_aliasName_ne a)]
  simp [wordSigns]

/-- A label is no name of a table. -/
theorem trails_label (label : String) : Trails (" AS " ++ identifier label) [] := by
  have has : scan (.between false) " AS ".toList = ([], .between true) := by decide
  have hapart : Apart " AS " := by decide
  refine ⟨hapart.append _, Leads.reads ?_⟩
  rw [Leads, String.toList_append, scan_append, has, scan_identifier]
  rfl

/-! ## What a part of a text gives -/

namespace Block

theorem Scoped.mono {known known' : List String} {b : Block} (h : b.Scoped known)
    (hknown : known ⊆ known') : b.Scoped known' := by
  induction h generalizing known' with
  | introduces => exact .introduces
  | uses hname => exact .uses (hknown hname)
  | @group known bs _ ih =>
      have hwider : ownAll bs ++ known ⊆ ownAll bs ++ known' :=
        List.append_subset.2 ⟨List.subset_append_left _ _,
          List.Subset.trans hknown (List.subset_append_right _ _)⟩
      exact .group fun b hb => ih b hb hwider

variable {bs ds : List Block}

theorem signsAll_append : signsAll (bs ++ ds) = signsAll bs ++ signsAll ds := by
  induction bs with
  | nil => rfl
  | cons b bs ih => rw [List.cons_append, signsAll, signsAll, ih, List.append_assoc]

theorem introducedAll_append :
    introducedAll (bs ++ ds) = introducedAll bs ++ introducedAll ds := by
  induction bs with
  | nil => rfl
  | cons b bs ih =>
      rw [List.cons_append, introducedAll, introducedAll, ih, List.append_assoc]

/-- The signs of so many pairs of parentheses with no name in them. -/
def pairs (n : Nat) : List Sign :=
  signsAll (List.replicate n (.group []))

theorem introducedAll_replicate (n : Nat) :
    introducedAll (List.replicate n (.group [])) = [] := by
  induction n with
  | zero => rfl
  | succ n ih => exact ih

end Block

/-- **What the text says about tables where some names are known**: it gives names to tables, of
which these are its own and not in parentheses, and the columns that it uses are known. -/
def Involves (known own names : List String) (s : String) : Prop :=
  ∃ bs, Reads s (signsAll bs) ∧ own ⊆ ownAll bs ∧ (introducedAll bs).Perm names ∧
    ∀ b ∈ bs, b.Scoped known

variable {known own own' names names' : List String}

/-- A text with no name in it says nothing; it may have pairs of parentheses in it. -/
theorem involves_pairs (n : Nat) (h : Reads s (pairs n)) : Involves known [] [] s := by
  refine ⟨List.replicate n (.group []), h, List.nil_subset _, ?_, ?_⟩
  · rw [introducedAll_replicate]
  · intro b hb
    rw [List.eq_of_mem_replicate hb]
    exact .group (List.forall_mem_nil _)

theorem involves_nothing (h : Reads s []) : Involves known [] [] s :=
  involves_pairs 0 h

/-- A text that gives a name to a table and says nothing else. -/
theorem involves_name {name : String} (h : Reads s [.introduces name]) :
    Involves known [name] [name] s := by
  refine ⟨[.introduces name], h, List.Subset.refl _, .refl _, ?_⟩
  rw [List.forall_mem_singleton]
  exact .introduces

namespace Involves

/-- The names can be listed in another order. -/
theorem perm (h : Involves known own names s) (hown : own.Perm own') (hnames : names.Perm names') :
    Involves known own' names' s := by
  obtain ⟨bs, hreads, hsub, hintroduced, hscoped⟩ := h
  exact ⟨bs, hreads, List.Subset.trans hown.symm.subset hsub, hintroduced.trans hnames, hscoped⟩

/-- One text after another. -/
theorem append (hs : Involves known own names s) (hapart : Apart t)
    (ht : Involves known own' names' t) :
    Involves known (own ++ own') (names ++ names') (s ++ t) := by
  obtain ⟨bs, hreads, hown, hintroduced, hscoped⟩ := hs
  obtain ⟨ds, hreads', hown', hintroduced', hscoped'⟩ := ht
  refine ⟨bs ++ ds, ?_, ?_, ?_, List.forall_mem_append.2 ⟨hscoped, hscoped'⟩⟩
  · rw [signsAll_append]
    exact hreads.append ⟨hapart, hreads'⟩
  · rw [ownAll, List.flatMap_append]
    exact List.append_subset.2 ⟨List.Subset.trans hown (List.subset_append_left _ _),
      List.Subset.trans hown' (List.subset_append_right _ _)⟩
  · rw [introducedAll_append]
    exact hintroduced.append hintroduced'

/-- A text without names before another one. -/
theorem lead (ht : Involves known own names t) (hs : Leads s []) :
    Involves known own names (s ++ t) := by
  obtain ⟨bs, hreads, hrest⟩ := ht
  exact ⟨bs, hs.append hreads, hrest⟩

/-- A text without names behind another one. -/
theorem tail (hs : Involves known own names s) (n : Nat) (ht : Trails t (pairs n)) :
    Involves known own names (s ++ t) := by
  have hboth := hs.append ht.apart (involves_pairs n ht.reads)
  rwa [List.append_nil, List.append_nil] at hboth

/-- **A text in parentheses**: its own names are known inside of them and nowhere else. -/
theorem group (h : Involves (own ++ known) own names s) {before after : String}
    (hbefore : Leads before [.opening]) (hafter : Trails after [.closing]) :
    Involves known [] names (before ++ s ++ after) := by
  obtain ⟨bs, hreads, hown, hintroduced, hscoped⟩ := h
  have hknown : own ++ known ⊆ ownAll bs ++ known :=
    List.append_subset.2 ⟨List.Subset.trans hown (List.subset_append_left _ _),
      List.subset_append_right _ _⟩
  refine ⟨[.group bs], ?_, List.nil_subset _, ?_, ?_⟩
  · have hsigns : signsAll [.group bs] = [.opening] ++ signsAll bs ++ [.closing] := by
      simp [signsAll, signs]
    rw [hsigns]
    exact (hbefore.append hreads).append hafter
  · rwa [introducedAll, introduced, introducedAll, List.append_nil]
  · rw [List.forall_mem_singleton]
    exact .group fun b hb => (hscoped b hb).mono hknown

/-- A text in parentheses in which no table is given a name. -/
theorem parenthesized (h : Involves known [] names s) {before after : String}
    (hbefore : Leads before [.opening]) (hafter : Trails after [.closing]) :
    Involves known [] names (before ++ s ++ after) :=
  group (show Involves ([] ++ known) [] names s from h) hbefore hafter

/-- **A whole text**, in which only its own names are known. -/
theorem blocks (h : Involves own own names s) : ∃ bs, blocks? s = some bs ∧
    (introducedAll bs).Perm names ∧ ∀ b ∈ bs, b.Scoped (ownAll bs) := by
  obtain ⟨bs, hreads, hown, hintroduced, hscoped⟩ := h
  exact ⟨bs, blocks?_of_signs? hreads, hintroduced, fun b hb => (hscoped b hb).mono hown⟩

end Involves

/-- The text is empty, or it begins where a word ends and involves tables in parentheses only. -/
inductive Follows (known : List String) : List String → String → Prop where
  /-- It is empty. -/
  | nothing : Follows known [] ""
  /-- It involves tables. -/
  | involves {names : List String} {t : String} (hapart : Apart t)
      (h : Involves known [] names t) : Follows known names t

theorem Involves.follow (hs : Involves known own names s) (ht : Follows known names' t) :
    Involves known own (names ++ names') (s ++ t) := by
  cases ht with
  | nothing =>
      rw [String.append_empty, List.append_nil]
      exact hs
  | involves hapart h =>
      have hboth := hs.append hapart h
      rwa [List.append_nil] at hboth

/-- A column of a table that is known. -/
theorem involves_column {col : Column} (h : aliasName col.tableAlias ∈ known) :
    Involves known [] [] col.sql := by
  refine ⟨[.uses (aliasName col.tableAlias)], (leads_column col).reads, List.nil_subset _,
    .refl _, ?_⟩
  rw [List.forall_mem_singleton]
  exact .uses h

/-- A table and the name that is given to it. -/
theorem involves_tableSql (table : String) (a : Alias) :
    Involves known [aliasName a] [aliasName a] (tableSql table a) :=
  involves_name (reads_tableSql table a)

/-! ## Several texts -/

/-- The texts involve tables, each its own ones in parentheses only. -/
inductive InvolvesEach (known : List String) : List String → List String → Prop where
  /-- There are none. -/
  | nil : InvolvesEach known [] []
  /-- The first one involves tables, and so do the others. -/
  | cons {names names' : List String} {t : String} {ts : List String}
      (ht : Involves known [] names t) (hts : InvolvesEach known names' ts) :
      InvolvesEach known (names ++ names') (t :: ts)

namespace InvolvesEach

variable {ts us : List String}

theorem of_forall (h : ∀ t ∈ ts, Involves known [] [] t) : InvolvesEach known [] ts := by
  induction ts with
  | nil => exact .nil
  | cons t ts ih =>
      obtain ⟨ht, hts⟩ := List.forall_mem_cons.1 h
      exact .cons ht (ih hts)

theorem append (hts : InvolvesEach known names ts) (hus : InvolvesEach known names' us) :
    InvolvesEach known (names ++ names') (ts ++ us) := by
  induction hts with
  | nil => exact hus
  | cons ht _ ih =>
      rw [List.append_assoc]
      exact .cons ht ih

/-- Texts with a separator between them. -/
theorem intercalate {separator : String} (hleads : Leads separator []) (hapart : Apart separator)
    (h : InvolvesEach known names ts) :
    Involves known [] names (String.intercalate separator ts) := by
  induction h with
  | nil => exact involves_nothing (by decide : Reads "" [])
  | cons ht hts ih =>
      cases hts with
      | nil =>
          rw [List.append_nil, String.intercalate_singleton]
          exact ht
      | cons hu hts =>
          rw [String.intercalate_cons_cons, String.append_assoc]
          exact ht.append (hapart.append _) (ih.lead hleads)

end InvolvesEach

end Warden.Sql.Scoping
