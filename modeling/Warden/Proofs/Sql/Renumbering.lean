import Mathlib.Data.List.Chain
import Warden.Proofs.Sql.Congruence
import Warden.Proofs.Sql.Renaming
import Warden.Proofs.Sql.Structure

/-! # Texts under other table numbers

A condition under other table numbers is written as the same text but for these numbers: cut into
tokens, both texts have the same ones in the same places, except where one has the number of a table
and the other one the number that replaces it (**`Renumbered`**, **`renumbered_writeConditions`**).
That nothing else in a text looks like the number of a table is part of the statement: names stand
between quotes, and no word of the language is one (`Token.isTable`). -/

namespace Warden.Sql

variable {P : String → Prop} {ρ : Alias → Alias}

/-! ## Tokens -/

/-- The token is a word that begins as the numbers of tables do. -/
def Token.isTable : Token → Bool
  | .word s =>
    match s.toList with
    | 't' :: c :: _ => c.isDigit
    | _ => false
  | _ => false

example : (Token.word (aliasName 10)).isTable ∧ ¬ (Token.word "text").isTable := by decide

/-- The second token is the first one, or both are the numbers of tables. -/
inductive Token.Renames (ρ : Alias → Alias) : Token → Token → Prop where
  /-- It is no number of a table. -/
  | same {t : Token} (h : t.isTable = false) : Renames ρ t t
  /-- A table under its other number. -/
  | table (a : Alias) : Renames ρ (.word (aliasName a)) (.word (aliasName (ρ a)))

theorem aliasName_injective : Function.Injective aliasName := by
  intro a b h
  have hdigits : Nat.toDigits 10 a = Nat.toDigits 10 b := by
    simpa [aliasName] using congrArg String.toList h
  rw [← Nat.ofDigitChars_toDigits (b := 10) (n := a) (by decide) (by decide), hdigits,
    Nat.ofDigitChars_toDigits (by decide) (by decide)]

/-- The tokens are those of no table. -/
theorem forall₂_same {ts : List Token} (h : ts.all (!·.isTable) = true) :
    List.Forall₂ (Token.Renames ρ) ts ts := by
  rw [List.forall₂_same]
  intro t ht
  exact .same (by simpa using List.all_eq_true.1 h t ht)

/-! ## Words

Whether a word is the number of a table is seen without looking it up among the words of the
language. -/

section Words

variable {m n l : Mode} {c : Char} {cs : List Char} {ts : List Token}

/-- No word among the characters begins as the numbers of tables do. -/
def TableFree (cs : List Char) : Prop :=
  cs.IsChain fun c d => (c = 't' && d.isDigit) = false

instance (cs : List Char) : Decidable (TableFree cs) :=
  inferInstanceAs (Decidable (List.IsChain _ _))

/-- The word that is not finished. -/
def Mode.unfinished : Mode → List Char
  | .word read => read
  | _ => []

theorem not_isTable_wordToken (h : TableFree cs) : (wordToken cs).isTable = false := by
  have hkeywords : ∀ entry ∈ keywords, entry.2.isTable = false := by decide
  unfold wordToken
  split
  next entry hentry => exact hkeywords entry (List.mem_of_find?_eq_some hentry)
  next =>
    rw [Token.isTable, String.toList_ofList]
    split
    next d rest =>
      have hfirst := (List.isChain_cons_cons.1 h).1
      simpa using hfirst
    next => rfl

theorem begin?_spec (h : begin? c = some (ts, l)) :
    l.unfinished <:+ [c] ∧ ts.all (!·.isTable) = true := by
  unfold begin? at h
  split_ifs at h <;> cases h <;> simp [Mode.unfinished, Token.isTable]

theorem beginBehind_spec {t : Token} (ht : t.isTable = false) (h : beginBehind t c = some (ts, l)) :
    l.unfinished <:+ [c] ∧ ts.all (!·.isTable) = true := by
  obtain ⟨⟨us, m⟩, hbegin, hpair⟩ := Option.map_eq_some_iff.1 h
  obtain ⟨rfl, rfl⟩ := Prod.mk.inj hpair
  obtain ⟨hsuffix, hus⟩ := begin?_spec hbegin
  exact ⟨hsuffix, by simp [ht, hus]⟩

/-- A step goes on with the word or leaves it, and the token that it finishes is no table. -/
theorem step_spec (hfree : TableFree m.unfinished) (h : m.step c = some (ts, l)) :
    l.unfinished <:+ m.unfinished ++ [c] ∧ ts.all (!·.isTable) = true := by
  have hbehind {t : Token} {read : List Char} (ht : t.isTable = false)
      (h : beginBehind t c = some (ts, l)) :
      l.unfinished <:+ read ++ [c] ∧ ts.all (!·.isTable) = true := by
    obtain ⟨hsuffix, hts⟩ := beginBehind_spec ht h
    exact ⟨hsuffix.trans (List.suffix_append read [c]), hts⟩
  cases m with
  | between => exact begin?_spec h
  | word read =>
      simp only [Mode.step] at h
      split_ifs at h
      · cases h
        exact ⟨List.suffix_refl _, rfl⟩
      · exact hbehind (not_isTable_wordToken hfree) h
  | name read | text read | percent =>
      simp only [Mode.step] at h
      split_ifs at h <;> cases h <;> simp [Mode.unfinished, Token.isTable]
  | nameQuote read | textQuote read =>
      simp only [Mode.step] at h
      split_ifs at h
      · cases h
        exact ⟨List.nil_suffix, rfl⟩
      · exact hbehind rfl h

/-- No table is read where no word begins as their numbers do. -/
theorem scan_spec (hfree : TableFree (m.unfinished ++ cs)) (h : scan m cs = some (ts, n)) :
    TableFree n.unfinished ∧ ts.all (!·.isTable) = true := by
  induction cs generalizing m ts with
  | nil =>
      cases h
      rw [List.append_nil] at hfree
      exact ⟨hfree, rfl⟩
  | cons c cs ih =>
      obtain ⟨us, l, vs, hstep, hscan, rfl⟩ := exists_of_scan_cons h
      obtain ⟨⟨before, hbefore⟩, hus⟩ := step_spec hfree.left_of_append hstep
      have hrest : m.unfinished ++ c :: cs = before ++ (l.unfinished ++ cs) := by
        rw [← List.append_assoc, hbefore, List.append_assoc, List.singleton_append]
      rw [hrest] at hfree
      obtain ⟨hn, hvs⟩ := ih hfree.right_of_append hscan
      exact ⟨hn, by simp [hus, hvs]⟩

theorem finish_spec (hfree : TableFree m.unfinished) (h : m.finish = some ts) :
    ts.all (!·.isTable) = true := by
  cases m with
  | word read =>
      cases h
      have hread : TableFree read := hfree
      simpa using not_isTable_wordToken hread
  | between | nameQuote | textQuote =>
      cases h
      rfl
  | name | text | percent => cases h

end Words

/-! ## Texts -/

/-- The texts have the same tokens but for the numbers of tables. -/
def Renumbered (ρ : Alias → Alias) (s t : String) : Prop :=
  ∃ ts us, Lexes s ts ∧ Lexes t us ∧ List.Forall₂ (Token.Renames ρ) ts us

/-- The text has no number of a table, and what follows it begins another token. -/
def isLead (s : String) : Bool :=
  match scan .between s.toList with
  | some (ts, .between) => ts.all (!·.isTable)
  | _ => false

/-- The text has no number of a table, and begins where a token before it ends. -/
def isTail (s : String) : Bool :=
  Opens s && match lex s with
  | some ts => ts.all (!·.isTable)
  | none => false

section Plain

variable {cs : List Char}

theorem isLead_ofList
    (h : ((scan .between cs).any (·.2 = .between) && decide (TableFree cs)) = true) :
    isLead (String.ofList cs) = true := by
  obtain ⟨hscan, hfree⟩ := Bool.and_eq_true_iff.1 h
  have hfree : TableFree (Mode.between.unfinished ++ cs) := of_decide_eq_true hfree
  obtain ⟨⟨ts, m⟩, hscan, hm⟩ := (Option.any_eq_true _ _).1 hscan
  obtain rfl : m = .between := of_decide_eq_true hm
  rw [isLead, String.toList_ofList, hscan]
  exact (scan_spec hfree hscan).2

theorem isTail_ofList (h : (cs.head?.any endsToken &&
    ((scan .between cs).any (·.2.finish.isSome) && decide (TableFree cs))) = true) :
    isTail (String.ofList cs) = true := by
  obtain ⟨hopens, h⟩ := Bool.and_eq_true_iff.1 h
  obtain ⟨hscan, hfree⟩ := Bool.and_eq_true_iff.1 h
  have hfree : TableFree (Mode.between.unfinished ++ cs) := of_decide_eq_true hfree
  obtain ⟨⟨ts, m⟩, hscan, hm⟩ := (Option.any_eq_true _ _).1 hscan
  obtain ⟨us, hus⟩ := Option.isSome_iff_exists.1 hm
  obtain ⟨hm, hts⟩ := scan_spec hfree hscan
  have hlex : lex (String.ofList cs) = some (ts ++ us) :=
    lex_eq_some.2 ⟨ts, m, us, by rwa [String.toList_ofList], hus, rfl⟩
  have hopens : Opens (String.ofList cs) := by
    unfold Opens
    rwa [String.toList_ofList]
  rw [isTail, hlex, decide_eq_true hopens]
  simp [hts, finish_spec hm hus]

end Plain

variable {s t s' t' : String}

theorem renumbered_self {ts : List Token} (h : Lexes s ts) (hall : ts.all (!·.isTable) = true) :
    Renumbered ρ s s :=
  ⟨ts, ts, h, h, forall₂_same hall⟩

theorem Renumbered.append (h : Renumbered ρ s t) (h' : Renumbered ρ s' t') (hs : Opens s')
    (ht : Opens t') : Renumbered ρ (s ++ s') (t ++ t') := by
  obtain ⟨ts, us, hlex, hlex', hall⟩ := h
  obtain ⟨ts', us', hnext, hnext', hall'⟩ := h'
  exact ⟨_, _, hlex.append hnext hs, hlex'.append hnext' ht, List.rel_append hall hall'⟩

/-- A text of its own before both. -/
theorem Renumbered.lead (h : Renumbered ρ s t) {before : String} (hbefore : isLead before = true) :
    Renumbered ρ (before ++ s) (before ++ t) := by
  obtain ⟨ts, us, hlex, hlex', hall⟩ := h
  unfold isLead at hbefore
  split at hbefore
  case h_1 vs hclosed =>
    have hclosed : Closed before vs := hclosed
    exact ⟨_, _, hclosed.append hlex, hclosed.append hlex',
      List.rel_append (forall₂_same hbefore) hall⟩
  case h_2 => cases hbefore

/-- A text of its own behind both. -/
theorem Renumbered.tail (h : Renumbered ρ s t) {after : String} (hafter : isTail after = true) :
    Renumbered ρ (s ++ after) (t ++ after) := by
  obtain ⟨hopens, hafter⟩ := Bool.and_eq_true_iff.1 hafter
  have hopens := of_decide_eq_true hopens
  split at hafter
  case h_1 vs hlex => exact h.append (renumbered_self hlex hafter) hopens hopens
  case h_2 => cases hafter

/-! ## Columns and tables -/

theorem renumbered_column (c : Column) : Renumbered ρ c.sql (c.renamed ρ).sql :=
  ⟨_, _, lexes_column c, lexes_column _,
    .cons (.table c.tableAlias) (.cons (.same rfl) (.cons (.same rfl) .nil))⟩

theorem renumbered_tableSql (table : String) (a : Alias) :
    Renumbered ρ (tableSql table a) (tableSql table (ρ a)) :=
  ⟨_, _, lexes_tableSql table a, lexes_tableSql table (ρ a),
    .cons (.same rfl) (.cons (.same (by decide)) (.cons (.table a) .nil))⟩

theorem renumbered_constant (b : Bool) :
    Renumbered ρ (if b then "TRUE" else "FALSE") (if b then "TRUE" else "FALSE") := by
  cases b with
  | true => exact renumbered_self (by decide : Lexes "TRUE" [.word "TRUE"]) rfl
  | false => exact renumbered_self (by decide : Lexes "FALSE" [.word "FALSE"]) rfl

/-- No text before a part of a condition has the number of a table. -/
theorem isLead_of_mem : ∀ s ∈ leads, isLead s = true := by
  simp only [leads, List.forall_mem_cons]
  and_intros
  all_goals first | exact isLead_ofList (by decide) | exact List.forall_mem_nil _

/-- Nor has one behind it. -/
theorem isTail_of_mem : ∀ s ∈ tails, isTail s = true := by
  simp only [tails, List.forall_mem_cons]
  and_intros
  all_goals first | exact isTail_ofList (by decide) | exact List.forall_mem_nil _

/-- Tables can have other numbers wherever conditions name them. -/
theorem exchange_renumbered : Exchange (Renumbered ρ) isLead isTail id ρ where
  nothing := renumbered_self (by decide : Lexes "" []) rfl
  lead hbefore h := h.lead hbefore
  tail hafter h := h.tail hafter
  between := by
    intro middle s t s' t' hstarts hends h h'
    obtain ⟨hopens, -⟩ := Bool.and_eq_true_iff.1 hends
    have hopens := of_decide_eq_true hopens
    exact h.append (h'.lead hstarts) (hopens.append _) (hopens.append _)
  column := renumbered_column
  mark a := renumbered_column ⟨a, deletedMark⟩
  table := renumbered_tableSql
  constant := renumbered_constant
  starts_of_mem := isLead_of_mem
  ends_of_mem := isTail_of_mem

/-! ## Conditions -/

theorem Test.renamed_eq_mapColumn (t : Test) :
    t.renamed ρ = t.mapColumn (Column.exchanged id ρ) := by
  cases t <;> rfl

theorem Join.renamed_eq_exchanged (j : Join) : j.renamed ρ = j.exchanged id ρ := by
  obtain ⟨table, a, junction, on, paranoid⟩ := j
  cases junction <;> rfl

namespace Predicate

mutual

/-- Under other numbers, a condition keeps its names. -/
theorem renamed_eq_exchanged (p : Predicate) : p.renamed ρ = p.exchanged id ρ := by
  match p with
  | constant b => rfl
  | test t => rw [renamed, exchanged, t.renamed_eq_mapColumn]
  | conj ps => rw [renamed, exchanged, renamedAll_eq_exchangedAll ps]
  | disj ps => rw [renamed, exchanged, renamedAll_eq_exchangedAll ps]
  | neg p => rw [renamed, exchanged, renamed_eq_exchanged p]
  | exist j p => rw [renamed, exchanged, j.renamed_eq_exchanged, renamed_eq_exchanged p]

theorem renamedAll_eq_exchangedAll (ps : List Predicate) :
    renamedAll ρ ps = exchangedAll id ρ ps := by
  match ps with
  | [] => rfl
  | p :: ps => rw [renamedAll, exchangedAll, renamed_eq_exchanged p, renamedAll_eq_exchangedAll ps]

end

/-- **The text of conditions under other table numbers** has the same tokens but for these. -/
theorem renumbered_writeConditions {ps : List Predicate} (h : ∀ p ∈ ps, p.Over P) :
    Renumbered ρ (writeConditions ps).sql (writeConditions (ps.map (renamed ρ))).sql := by
  have hrenamed : ps.map (renamed ρ) = ps.map (exchanged id ρ) :=
    List.map_congr_left fun p _ => renamed_eq_exchanged p
  rw [hrenamed]
  exact exchange_renumbered.writeConditions h

end Predicate

end Warden.Sql
