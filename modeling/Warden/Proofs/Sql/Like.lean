import Mathlib.Data.List.Forall2
import Warden.Filter.Evaluation
import Warden.Proofs.Sql.Truth
import Warden.Sql.Select

/-! # Patterns that look for a text

A condition that looks for a text at the beginning, at the end or anywhere in another one becomes a
pattern, and so does a search. The database reads a pattern place by place (**`likePlaces?`**): a
percent sign stands for any characters, an underscore for one, a backslash takes the next character
as it is, and every other character stands for itself. The pattern then has to span the whole text
(**`LikePlace.Spans`**, decided by `LikePlace.spans`).

The text that is looked for is written with a backslash before each of the three characters. Read
back it stands for its own characters and for nothing else, whatever they are
(**`likePlaces?_literal`**), and percent signs around it let it stand anywhere. So the database
gives the answer that is given in memory (**`Operator.LooksFor`**), and a search finds the rows with
the text in one of its fields: **`patterns_match_literally`**. -/

namespace Warden

/-! ## Places of a pattern -/

namespace LikePlace

variable {same : Char → Char → Bool} {places : List LikePlace} {text v : List Char}

/-- The places span the text from its start to its end, `same` telling which characters stand for
each other. -/
inductive Spans (same : Char → Char → Bool) : List LikePlace → List Char → Prop where
  /-- No places span no text. -/
  | nil : Spans same [] []
  /-- Any characters, possibly none. -/
  | any (skipped : List Char) {places : List LikePlace} {text : List Char}
      (h : Spans same places text) : Spans same (.any :: places) (skipped ++ text)
  /-- One character. -/
  | one (c : Char) {places : List LikePlace} {text : List Char} (h : Spans same places text) :
      Spans same (.one :: places) (c :: text)
  /-- A character that stands for the one of the pattern. -/
  | char {p c : Char} {places : List LikePlace} {text : List Char} (hc : same p c = true)
      (h : Spans same places text) : Spans same (.char p :: places) (c :: text)

/-- The places span the text. At a percent sign every number of characters is tried. -/
def spans (same : Char → Char → Bool) : List LikePlace → List Char → Bool
  | [], cs => cs.isEmpty
  | .any :: places, cs => skipSome (spans same places) cs
  | .one :: _, [] => false
  | .one :: places, _ :: cs => spans same places cs
  | .char _ :: _, [] => false
  | .char p :: places, c :: cs => same p c && spans same places cs

/-- Some characters can be left out so that the rest has a property iff they stand before it. -/
theorem skipSome_iff {rest : List Char → Bool} : skipSome rest text = true ↔
    ∃ skipped left, text = skipped ++ left ∧ rest left = true := by
  induction text with
  | nil =>
      rw [skipSome]
      constructor
      · exact fun h => ⟨[], [], rfl, h⟩
      · rintro ⟨skipped, left, hnil, h⟩
        rwa [← (List.append_eq_nil_iff.1 hnil.symm).2]
  | cons c text ih =>
      rw [skipSome, Bool.or_eq_true, ih]
      constructor
      · rintro (h | ⟨skipped, left, rfl, h⟩)
        · exact ⟨[], c :: text, rfl, h⟩
        · exact ⟨c :: skipped, left, rfl, h⟩
      · rintro ⟨skipped, left, hsplit, h⟩
        cases skipped with
        | nil => exact .inl (hsplit ▸ h)
        | cons d skipped => exact .inr ⟨skipped, left, (List.cons_eq_cons.1 hsplit).2, h⟩

/-- **Trying finds a way to span the text iff there is one.** -/
theorem spans_iff : spans same places text = true ↔ Spans same places text := by
  -- each place leaves another text to the places behind it
  induction places generalizing text with
  | nil =>
      rw [spans, List.isEmpty_iff]
      constructor
      · rintro rfl
        exact .nil
      · rintro ⟨⟩
        rfl
  | cons place places ih =>
      cases place with
      | any =>
          rw [spans, skipSome_iff]
          constructor
          · rintro ⟨skipped, left, rfl, h⟩
            exact .any skipped (ih.1 h)
          · rintro (_ | ⟨skipped, h⟩)
            exact ⟨skipped, _, rfl, ih.2 h⟩
      | one =>
          cases text with
          | nil => exact iff_of_false Bool.false_ne_true nofun
          | cons c text =>
              rw [spans, ih]
              constructor
              · exact .one c
              · rintro (_ | _ | ⟨_, h⟩)
                exact h
      | char p =>
          cases text with
          | nil => exact iff_of_false Bool.false_ne_true nofun
          | cons c text =>
              rw [spans, Bool.and_eq_true, ih]
              constructor
              · rintro ⟨hc, h⟩
                exact .char hc h
              · rintro (_ | _ | _ | ⟨hc, h⟩)
                exact ⟨hc, h⟩

/-- Characters that stand for themselves span a text that is the same as they are. -/
theorem spans_chars : Spans same (v.map .char ++ places) text ↔
    ∃ found rest, text = found ++ rest ∧ List.Forall₂ (same · ·) v found ∧
      Spans same places rest := by
  induction v generalizing text with
  | nil =>
      constructor
      · exact fun h => ⟨[], text, rfl, .nil, h⟩
      · rintro ⟨_, rest, rfl, ⟨⟩, h⟩
        exact h
  | cons p v ih =>
      rw [List.map_cons, List.cons_append]
      constructor
      · rintro (_ | _ | _ | ⟨hc, h⟩)
        obtain ⟨found, rest, rfl, hfound, h⟩ := ih.1 h
        exact ⟨_ :: found, rest, rfl, .cons hc hfound, h⟩
      · rintro ⟨_, rest, rfl, _ | ⟨hc, hfound⟩, h⟩
        exact .char hc (ih.2 ⟨_, rest, rfl, hfound, h⟩)

theorem spans_any : Spans same (.any :: places) text ↔
    ∃ skipped rest, text = skipped ++ rest ∧ Spans same places rest := by
  constructor
  · rintro (_ | ⟨skipped, h⟩)
    exact ⟨skipped, _, rfl, h⟩
  · rintro ⟨skipped, rest, rfl, h⟩
    exact .any skipped h

/-- Any characters span every text. -/
theorem spans_rest (text : List Char) : Spans same [.any] text :=
  List.append_nil text ▸ .any text .nil

/-! ### A text at the beginning, at the end or anywhere -/

/-- The characters and then any others span what begins with the same characters. -/
theorem spans_prefix : Spans same (v.map .char ++ [.any]) text ↔
    ∃ found, found <+: text ∧ List.Forall₂ (same · ·) v found := by
  rw [spans_chars]
  constructor
  · rintro ⟨found, rest, rfl, hfound, -⟩
    exact ⟨found, List.prefix_append found rest, hfound⟩
  · rintro ⟨found, ⟨rest, rfl⟩, hfound⟩
    exact ⟨found, rest, rfl, hfound, spans_rest rest⟩

/-- Any characters and then the given ones span what ends with the same characters. -/
theorem spans_suffix : Spans same (.any :: v.map .char) text ↔
    ∃ found, found <:+ text ∧ List.Forall₂ (same · ·) v found := by
  rw [spans_any]
  constructor
  · rintro ⟨skipped, rest, rfl, h⟩
    -- no places are left behind the characters, so no text is either
    obtain ⟨found, _, rfl, hfound, ⟨⟩⟩ := spans_chars.1 (List.append_nil (v.map _) ▸ h)
    rw [List.append_nil]
    exact ⟨found, List.suffix_append skipped found, hfound⟩
  · rintro ⟨found, ⟨skipped, rfl⟩, hfound⟩
    refine ⟨skipped, found, rfl, ?_⟩
    rw [← List.append_nil (v.map _), spans_chars]
    exact ⟨found, [], (List.append_nil found).symm, hfound, .nil⟩

/-- The characters with any others around them span what has the same characters somewhere. -/
theorem spans_infix : Spans same (.any :: (v.map .char ++ [.any])) text ↔
    ∃ found, found <:+: text ∧ List.Forall₂ (same · ·) v found := by
  simp only [spans_any, spans_prefix]
  constructor
  · rintro ⟨skipped, _, rfl, found, ⟨rest, rfl⟩, hfound⟩
    exact ⟨found, ⟨skipped, rest, List.append_assoc ..⟩, hfound⟩
  · rintro ⟨found, ⟨skipped, rest, rfl⟩, hfound⟩
    refine ⟨skipped, found ++ rest, List.append_assoc .., found, ?_, hfound⟩
    exact List.prefix_append found rest

/-- Characters that are the same if they are equal are the same only in the text itself. -/
theorem forall₂_beq {found : List Char} :
    List.Forall₂ (fun p c => (p == c) = true) v found ↔ v = found := by
  simp only [beq_iff_eq, List.forall₂_eq_eq_eq]

end LikePlace

/-! ## Patterns as the database reads them -/

namespace Sql

open LikePlace

/-- The places of a pattern. A backslash takes the next character as it is, and there must be
one. -/
def likePlaces? : List Char → Option (List LikePlace)
  | [] => some []
  | ['\\'] => none
  | '\\' :: c :: cs => (likePlaces? cs).map (.char c :: ·)
  | c :: cs => (likePlaces? cs).map (.ofChar c :: ·)

/-- The pattern is like the text, `same` telling which characters stand for each other. A pattern
that cannot be read gives no answer. -/
def like? (same : Char → Char → Bool) (pattern text : String) : Option Bool :=
  (likePlaces? pattern.toList).map (spans same · text.toList)

/-! ### Characters after a backslash -/

/-- The text with a backslash before every occurrence of a character. -/
def escaped (c : Char) (s : String) : String :=
  Text.expandChars (fun d => if d = c then ['\\', d] else [d]) s

/-- Characters are replaced twice as they are replaced at once. -/
theorem expandChars_expandChars (f g : Char → List Char) (s : String) :
    Text.expandChars g (Text.expandChars f s) = Text.expandChars (fun c => (f c).flatMap g) s := by
  simp only [Text.expandChars, String.toList_ofList, List.flatMap_assoc]

/-- Backslashes are put before backslashes, then before percent signs, then before underscores.
Those that are put there first are not met again. -/
theorem patternLiteral_eq_escaped (s : String) :
    patternLiteral s = escaped '_' (escaped '%' (escaped '\\' s)) := by
  rw [escaped, escaped, escaped, expandChars_expandChars, expandChars_expandChars, patternLiteral]
  congr 1
  funext c
  -- a character meets one of the replacements at most, and so does what it is replaced by
  by_cases hbackslash : c = '\\'
  · subst hbackslash
    rfl
  by_cases hpercent : c = '%'
  · subst hpercent
    rfl
  by_cases hunderscore : c = '_'
  · subst hunderscore
    rfl
  simp [isPatternChar, hbackslash, hpercent, hunderscore]

/-- Every character but a backslash has a place of its own. -/
theorem likePlaces?_cons {c : Char} (hc : c ≠ '\\') (cs : List Char) :
    likePlaces? (c :: cs) = (likePlaces? cs).map (.ofChar c :: ·) := by
  rw [likePlaces?]
  · rintro rfl
    exact absurd rfl hc
  · rintro _ _ rfl
    exact absurd rfl hc

/-- A character without a meaning of its own stands for itself. -/
theorem ofChar_of_not_isPatternChar {c : Char} (hc : isPatternChar c = false) :
    c ≠ '\\' ∧ ofChar c = .char c := by
  simp only [isPatternChar, Bool.or_eq_false_iff, decide_eq_false_iff_not] at hc
  exact ⟨hc.1.1, by rw [ofChar, if_neg hc.1.2, if_neg hc.2]⟩

/-- **Written with backslashes, a text stands for its own characters**, whatever follows it. -/
theorem likePlaces?_literal (v : String) (rest : List Char) :
    likePlaces? ((patternLiteral v).toList ++ rest) =
      (likePlaces? rest).map (v.toList.map .char ++ ·) := by
  rw [patternLiteral, Text.expandChars, String.toList_ofList]
  induction v.toList with
  | nil => simp
  | cons c cs ih =>
      rw [List.flatMap_cons, List.append_assoc]
      cases hc : isPatternChar c with
      | true =>
          -- the backslash takes the character, whichever it is
          rw [if_pos rfl, List.cons_append, List.singleton_append, likePlaces?, ih, Option.map_map]
          rfl
      | false =>
          obtain ⟨hbackslash, hchar⟩ := ofChar_of_not_isPatternChar hc
          rw [if_neg Bool.false_ne_true, List.singleton_append, likePlaces?_cons hbackslash, ih,
            Option.map_map, hchar]
          rfl

/-! ### Texts that a pattern is like -/

theorem likePlaces?_percent (pattern : String) :
    likePlaces? ("%" ++ pattern).toList = (likePlaces? pattern.toList).map (.any :: ·) := by
  rw [String.toList_append]
  exact likePlaces?_cons (by decide) _

theorem likePlaces?_literal_percent (v : String) :
    likePlaces? (patternLiteral v ++ "%").toList = some (v.toList.map .char ++ [.any]) := by
  rw [String.toList_append, likePlaces?_literal]
  rfl

section Like

variable (same : Char → Char → Bool) (v t : String)

/-- A text with a percent sign behind it is looked for at the beginning. -/
theorem like?_start : ∃ b, like? same (patternLiteral v ++ "%") t = some b ∧
    (b = true ↔ ∃ found, found <+: t.toList ∧ List.Forall₂ (same · ·) v.toList found) := by
  rw [like?, likePlaces?_literal_percent]
  exact ⟨_, rfl, spans_iff.trans spans_prefix⟩

/-- A text with a percent sign before it is looked for at the end. -/
theorem like?_end : ∃ b, like? same ("%" ++ patternLiteral v) t = some b ∧
    (b = true ↔ ∃ found, found <:+ t.toList ∧ List.Forall₂ (same · ·) v.toList found) := by
  have hliteral : likePlaces? (patternLiteral v).toList = some (v.toList.map .char) := by
    have h := likePlaces?_literal v []
    rwa [List.append_nil, likePlaces?, Option.map_some, List.append_nil] at h
  rw [like?, likePlaces?_percent, hliteral]
  exact ⟨_, rfl, spans_iff.trans spans_suffix⟩

/-- A text between percent signs is looked for anywhere. -/
theorem like?_anywhere : ∃ b, like? same ("%" ++ patternLiteral v ++ "%") t = some b ∧
    (b = true ↔ ∃ found, found <:+: t.toList ∧ List.Forall₂ (same · ·) v.toList found) := by
  rw [like?, String.append_assoc, likePlaces?_percent, likePlaces?_literal_percent]
  exact ⟨_, rfl, spans_iff.trans spans_infix⟩

end Like

/-- Where equal characters are looked for, it is the text itself that is found. -/
theorem like?_eq_of_iff {pattern v t : String} {stands : List Char → List Char → Prop}
    {found : Bool} (hfound : found = true ↔ stands v.toList t.toList)
    (h : ∃ b, like? (· == ·) pattern t = some b ∧ (b = true ↔ ∃ part, stands part t.toList ∧
      List.Forall₂ (fun p c => (p == c) = true) v.toList part)) :
    like? (· == ·) pattern t = some found := by
  obtain ⟨b, hlike, hb⟩ := h
  simp only [forall₂_beq, exists_eq_right'] at hb
  rw [hlike, Bool.eq_iff_iff.2 (hb.trans hfound.symm)]

theorem like?_beginsWith (v t : String) :
    like? (· == ·) ("" ++ patternLiteral v ++ "%") t =
      some (Text.beginsWith v.toList t.toList) := by
  rw [String.empty_append]
  exact like?_eq_of_iff Text.beginsWith_iff_prefix (like?_start _ v t)

theorem like?_endsWith (v t : String) :
    like? (· == ·) ("%" ++ patternLiteral v ++ "") t = some (Text.endsWith v.toList t.toList) := by
  rw [String.append_empty]
  exact like?_eq_of_iff Text.endsWith_iff_suffix (like?_end _ v t)

theorem like?_occursIn (v t : String) :
    like? (· == ·) ("%" ++ patternLiteral v ++ "%") t = some (Text.occursIn v.toList t.toList) :=
  like?_eq_of_iff Text.occursIn_iff_infix (like?_anywhere _ v t)

-- a percent sign that is looked for is found only where there is one
example : like? (· == ·) ("%" ++ patternLiteral "5%" ++ "%") "5 of 50" = some false := by cbv

/-! ## What tests say of rows of texts -/

/-- What the operands of a row hold: a text or nothing. -/
abbrev TextRow := Operand → Option String

/-- The truth value of a comparison with a pattern, null where there is no text. -/
def likeTruth? (same : Char → Char → Bool) (pattern : String) : Option String → Option Truth
  | some t => (like? same pattern t).map .ofBool
  | none => some .unknown

/-- The truth value of a comparison of texts with patterns, `anyCase` telling which characters stand
for each other when case is not regarded. -/
def Test.likeTruth? (anyCase : Char → Char → Bool) (row : TextRow) : Test → Option Truth
  | .compare o .like (.text p) => Sql.likeTruth? (· == ·) p (row o)
  | .compare o .notLike (.text p) => (Sql.likeTruth? (· == ·) p (row o)).map .not
  | .compare o .ilike (.text p) => Sql.likeTruth? anyCase p (row o)
  | .compare o .notIlike (.text p) => (Sql.likeTruth? anyCase p (row o)).map .not
  | .search c p => Sql.likeTruth? anyCase p (row ⟨c, some "text"⟩)
  | _ => none

namespace Predicate

mutual

/-- The truth value of a predicate of which each test has a truth value. -/
def valued? (answer : Test → Option Truth) : Predicate → Option Truth
  | .constant b => some (.ofBool b)
  | .test t => answer t
  | .conj ps => if ps.isEmpty then none else allValued? answer ps
  | .disj ps => if ps.isEmpty then none else anyValued? answer ps
  | .neg p => (valued? answer p).map .not
  | .exist _ _ => none

/-- The truth value of a conjunction. -/
def allValued? (answer : Test → Option Truth) : List Predicate → Option Truth
  | [] => some .holds
  | p :: ps => do return (← valued? answer p).and (← allValued? answer ps)

/-- The truth value of a disjunction. -/
def anyValued? (answer : Test → Option Truth) : List Predicate → Option Truth
  | [] => some .fails
  | p :: ps => do return (← valued? answer p).or (← anyValued? answer ps)

end

mutual

/-- The connectives are those of predicates on rows of integers. -/
theorem truth?_eq_valued? (row : IntegerRow) :
    (p : Predicate) → p.truth? row = p.valued? (Test.truth? row)
  | .constant _ | .test _ | .exist _ _ => by rw [truth?, valued?]
  | .conj ps => by rw [truth?, valued?, allTruth?_eq_allValued? row ps]
  | .disj ps => by rw [truth?, valued?, anyTruth?_eq_anyValued? row ps]
  | .neg p => by rw [truth?, valued?, truth?_eq_valued? row p]

theorem allTruth?_eq_allValued? (row : IntegerRow) :
    (ps : List Predicate) → allTruth? row ps = allValued? (Test.truth? row) ps
  | [] => rfl
  | p :: ps => by
      rw [allTruth?, allValued?, truth?_eq_valued? row p, allTruth?_eq_allValued? row ps]

theorem anyTruth?_eq_anyValued? (row : IntegerRow) :
    (ps : List Predicate) → anyTruth? row ps = anyValued? (Test.truth? row) ps
  | [] => rfl
  | p :: ps => by
      rw [anyTruth?, anyValued?, truth?_eq_valued? row p, anyTruth?_eq_anyValued? row ps]

end

/-- A disjunction of tests that have truth values holds iff one of them does. -/
theorem anyValued?_tests {α : Type} {answer : Test → Option Truth} {test : α → Test} {as : List α}
    (h : ∀ a ∈ as, ∃ truth, answer (test a) = some truth) :
    ∃ truth, anyValued? answer (as.map fun a => .test (test a)) = some truth ∧
      (truth = .holds ↔ ∃ a ∈ as, answer (test a) = some .holds) := by
  induction as with
  | nil => exact ⟨.fails, rfl, iff_of_false nofun nofun⟩
  | cons a as ih =>
      obtain ⟨⟨first, hfirst⟩, has⟩ := List.forall_mem_cons.1 h
      obtain ⟨others, hothers, hiff⟩ := ih has
      refine ⟨first.or others, ?_, ?_⟩
      · rw [List.map_cons, anyValued?, valued?, hfirst, hothers]
        rfl
      · rw [Truth.or_eq_holds, hiff, List.exists_mem_cons_iff, hfirst, Option.some_inj]

end Predicate

/-! ## Searches -/

/-- The term stands somewhere in the text, in characters that are the same as its own. -/
def Mentions (same : Char → Char → Bool) (text term : String) : Prop :=
  ∃ found, found <:+: text.toList ∧ List.Forall₂ (same · ·) term.toList found

/-- A comparison with the pattern of a search has a truth value, and holds iff there is a text that
mentions the term. -/
theorem likeTruth?_search (same : Char → Char → Bool) (term : String) (text : Option String) :
    ∃ truth, likeTruth? same ("%" ++ patternLiteral term ++ "%") text = some truth ∧
      (truth = .holds ↔ ∃ t, text = some t ∧ Mentions same t term) := by
  cases text with
  | none => exact ⟨.unknown, rfl, iff_of_false nofun nofun⟩
  | some t =>
      obtain ⟨b, hlike, hb⟩ := like?_anywhere same term t
      refine ⟨.ofBool b, by rw [likeTruth?, hlike, Option.map_some], ?_⟩
      simp only [Option.some_inj, exists_eq_left']
      rw [Mentions, ← hb]
      cases b <;> simp [Truth.ofBool]

/-- A search has a truth value on every row, and finds the rows of which a field mentions the
term. -/
theorem valued?_searchPredicate (anyCase : Char → Char → Bool) (row : TextRow) (s : Search) :
    ∃ truth, (searchPredicate s).valued? (Test.likeTruth? anyCase row) = some truth ∧
      (truth = .holds ↔ ∃ f ∈ s.fields, ∃ t, row ⟨⟨baseAlias, f⟩, some "text"⟩ = some t ∧
        Mentions anyCase t s.term) := by
  rw [searchPredicate]
  split
  case isTrue hempty =>
    -- without fields nothing is found
    rw [List.isEmpty_iff.1 hempty]
    exact ⟨.fails, rfl, iff_of_false nofun nofun⟩
  case isFalse hfields =>
    have htests (f : String) : ∃ truth,
        Test.likeTruth? anyCase row (.search ⟨baseAlias, f⟩ ("%" ++ patternLiteral s.term ++ "%")) =
          some truth ∧ (truth = .holds ↔ ∃ t, row ⟨⟨baseAlias, f⟩, some "text"⟩ = some t ∧
            Mentions anyCase t s.term) := likeTruth?_search anyCase s.term _
    obtain ⟨truth, htruth, hiff⟩ := Predicate.anyValued?_tests fun f (_ : f ∈ s.fields) =>
      (htests f).imp fun _ h => h.1
    refine ⟨truth, ?_, hiff.trans (exists_congr fun f => and_congr_right fun _ => ?_)⟩
    · rw [Predicate.valued?, if_neg (by simpa using hfields)]
      exact htruth
    · obtain ⟨value, hvalue, hholds⟩ := htests f
      rw [← hholds, hvalue, Option.some_inj]

end Sql

/-! ## The same in memory -/

open Sql

namespace Operator

variable {op : Operator} {pattern : String → String} {found : List Char → List Char → Bool}
  {stands : List Char → List Char → Prop}

/-- The operator looks for a text that stands in a certain way in another one: so it is decided in
memory, and so the database decides the test that the operator becomes. Where there is no text the
database has no answer, and in memory it is not found. -/
def LooksFor (op : Operator) (stands : List Char → List Char → Prop) : Prop :=
  ∀ (anyCase : Char → Char → Bool) (row : TextRow) (o : Operand) (family : TypeFamily) (v : String),
    ∃ q : Sql.Test, operatorPredicate op o family (.text v) = .ok (.test q) ∧
      (row o = none →
        q.likeTruth? anyCase row = some .unknown ∧ op.test .null (.text v) = .ok false) ∧
      ∀ t, row o = some t → ∃ b, q.likeTruth? anyCase row = some (.ofBool b) ∧
        op.test (.text t) (.text v) = .ok b ∧ (b = true ↔ stands v.toList t.toList)

/-- An operator looks for texts that are like a pattern if it does so in memory. -/
theorem looksFor_like
    (hp : ∀ o family v, operatorPredicate op o family (.text v) =
      .ok (.test (.compare o .like (.text (pattern v)))))
    (hnull : ∀ v, op.test .null (.text v) = .ok false)
    (htest : ∀ t v, op.test (.text t) (.text v) = .ok (found v.toList t.toList))
    (hlike : ∀ v t, like? (· == ·) (pattern v) t = some (found v.toList t.toList))
    (hfound : ∀ v t, found v t = true ↔ stands v t) : op.LooksFor stands := by
  intro anyCase row o family v
  refine ⟨_, hp o family v, fun hrow => ⟨?_, hnull v⟩, fun t hrow => ⟨_, ?_, htest t v, hfound _ _⟩⟩
  · rw [Test.likeTruth?, hrow, likeTruth?]
  · rw [Test.likeTruth?, hrow, likeTruth?, hlike, Option.map_some]

/-- An operator looks for texts that are not like a pattern if it does so in memory. -/
theorem looksFor_notLike
    (hp : ∀ o family v, operatorPredicate op o family (.text v) =
      .ok (.test (.compare o .notLike (.text (pattern v)))))
    (hnull : ∀ v, op.test .null (.text v) = .ok false)
    (htest : ∀ t v, op.test (.text t) (.text v) = .ok (!found v.toList t.toList))
    (hlike : ∀ v t, like? (· == ·) (pattern v) t = some (found v.toList t.toList))
    (hfound : ∀ v t, found v t = true ↔ stands v t) : op.LooksFor fun v t => ¬ stands v t := by
  intro anyCase row o family v
  refine ⟨_, hp o family v, fun hrow => ⟨?_, hnull v⟩, fun t hrow => ⟨_, ?_, htest t v, ?_⟩⟩
  · rw [Test.likeTruth?, hrow, likeTruth?]
    rfl
  · rw [Test.likeTruth?, hrow, likeTruth?, hlike]
    cases found v.toList t.toList <;> rfl
  · rw [Bool.not_eq_true', ← Bool.not_eq_true, hfound]

end Operator

/-- **Patterns match literally.** Whatever characters a text has, a condition that looks for it
somewhere in another one, at the beginning or at the end holds in the database iff it stands there,
and a condition against it iff it does not; in memory the answers are the same. The backslashes are
what three replacements in turn put there. A search finds the rows with a field that mentions its
term, in letters of any case. -/
theorem patterns_match_literally :
    Operator.contains.LooksFor (fun v t => v <:+: t) ∧
    Operator.startsWith.LooksFor (fun v t => v <+: t) ∧
    Operator.endsWith.LooksFor (fun v t => v <:+ t) ∧
    Operator.ncontains.LooksFor (fun v t => ¬ v <:+: t) ∧
    Operator.nstartsWith.LooksFor (fun v t => ¬ v <+: t) ∧
    Operator.nendsWith.LooksFor (fun v t => ¬ v <:+ t) ∧
    (∀ s, patternLiteral s = escaped '_' (escaped '%' (escaped '\\' s))) ∧
    ∀ (anyCase : Char → Char → Bool) (row : TextRow) (s : Search), ∃ truth,
      (searchPredicate s).valued? (Test.likeTruth? anyCase row) = some truth ∧
        (truth = .holds ↔ ∃ f ∈ s.fields, ∃ t, row ⟨⟨baseAlias, f⟩, some "text"⟩ = some t ∧
          Mentions anyCase t s.term) := by
  have hinfix (v t : List Char) := @Text.occursIn_iff_infix v t
  have hprefix (v t : List Char) := @Text.beginsWith_iff_prefix v t
  have hsuffix (v t : List Char) := @Text.endsWith_iff_suffix v t
  refine ⟨?contains, ?startsWith, ?endsWith, ?ncontains, ?nstartsWith, ?nendsWith,
    patternLiteral_eq_escaped, valued?_searchPredicate⟩
  case contains =>
    exact Operator.looksFor_like (fun _ _ _ => rfl) (fun _ => rfl) (fun _ _ => rfl) like?_occursIn
      hinfix
  case startsWith =>
    exact Operator.looksFor_like (fun _ _ _ => rfl) (fun _ => rfl) (fun _ _ => rfl) like?_beginsWith
      hprefix
  case endsWith =>
    exact Operator.looksFor_like (fun _ _ _ => rfl) (fun _ => rfl) (fun _ _ => rfl) like?_endsWith
      hsuffix
  case ncontains =>
    exact Operator.looksFor_notLike (fun _ _ _ => rfl) (fun _ => rfl) (fun _ _ => rfl)
      like?_occursIn hinfix
  case nstartsWith =>
    exact Operator.looksFor_notLike (fun _ _ _ => rfl) (fun _ => rfl) (fun _ _ => rfl)
      like?_beginsWith hprefix
  case nendsWith =>
    exact Operator.looksFor_notLike (fun _ _ _ => rfl) (fun _ => rfl) (fun _ _ => rfl)
      like?_endsWith hsuffix

end Warden
