import Warden.Proofs.Sql.Congruence
import Warden.Proofs.Sql.Quoting

/-! # Outlines under other names

Under other names a condition has the same outline but for these names (**`Respelled`**): each
character outside of quotes stays where it is, and where a name stood between quotes, the one that
replaces it stands there (**`exchange_respelled`**). The mark of deleted rows and the few texts that
belong to the language keep their places too (`Stretch.isFixed`). -/

namespace Warden.Sql

variable {σ : String → String}

/-! ## Stretches -/

/-- The stretch stands in a text whatever the names are. -/
def Stretch.isFixed : Stretch → Bool
  | .plain _ => true
  | .name s => s = deletedMark
  | .literal s => s ∈ ["", " ", "simple", "\x7b\x7d", "[]"]

/-- The second stretch is the first one, or both are names between quotes. -/
inductive Stretch.Renames (σ : String → String) : Stretch → Stretch → Prop where
  /-- It is no name, or one that is never changed. -/
  | same {p : Stretch} (h : p.isFixed = true) : Renames σ p p
  /-- A name and the one that replaces it. -/
  | name (s : String) : Renames σ (.name s) (.name (σ s))
  /-- A name as a text, and the one that replaces it. -/
  | literal (s : String) : Renames σ (.literal s) (.literal (σ s))

/-- Nothing in the outline is changed. -/
theorem forall₂_renames {ps : List Stretch} (h : ps.all Stretch.isFixed = true) :
    List.Forall₂ (Stretch.Renames σ) ps ps := by
  rw [List.forall₂_same]
  intro p hp
  exact .same (List.all_eq_true.1 h p hp)

/-! ## Texts -/

/-- The texts have the same outline but for names. -/
def Respelled (σ : String → String) (s t : String) : Prop :=
  ∃ ps qs, outline? s = some ps ∧ outline? t = some qs ∧ List.Forall₂ (Stretch.Renames σ) ps qs

/-- The text has no name in it. -/
def isFixed (s : String) : Bool :=
  (outline? s).any (·.all Stretch.isFixed)

/-- The text has no name in it, and a quote may stand behind it. -/
def isStart (s : String) : Bool :=
  StaysFree s && isFixed s

/-- The text has no name in it, and may stand behind a quote. -/
def isEnd (s : String) : Bool :=
  OpensPlain s && isFixed s

/-- The text has no name in it, and may stand between quotes. -/
def isMiddle (s : String) : Bool :=
  isStart s && isEnd s

variable {s t s' t' : String}

theorem respelled_self (h : isFixed s = true) : Respelled σ s s := by
  rw [isFixed, Option.any_eq_true] at h
  obtain ⟨ps, hps, hall⟩ := h
  exact ⟨ps, ps, hps, hps, forall₂_renames hall⟩

theorem respelled_of_isPlain (h : ∀ c ∈ s.toList, isPlain c = true) : Respelled σ s s := by
  refine respelled_self ?_
  rw [isFixed, outline?_of_isPlain h, Option.any_some, List.all_map]
  exact List.all_eq_true.2 fun _ _ => rfl

section Characters

/-! ### Texts character by character

A text is given by its characters here, so that no test has to find them first. Texts with quotes in
them are rare, and those without any are seen at once to be no more than characters. -/

variable {cs : List Char}

/-- The characters have no name among them. -/
def fixedChars (cs : List Char) : Bool :=
  (outlineFrom true cs).any (·.all Stretch.isFixed)

theorem isFixed_ofList (h : fixedChars cs = true) : isFixed (String.ofList cs) = true := by
  rw [isFixed, outline?, String.toList_ofList]
  exact h

theorem isStart_quoted (h : (fixedChars cs && staysFree true cs) = true) :
    isStart (String.ofList cs) = true := by
  obtain ⟨hfixed, hfree⟩ := Bool.and_eq_true_iff.1 h
  rw [isStart, isFixed_ofList hfixed, Bool.and_true, decide_eq_true_iff, StaysFree,
    String.toList_ofList]
  exact hfree

theorem isEnd_quoted (h : (fixedChars cs && opensPlain cs) = true) :
    isEnd (String.ofList cs) = true := by
  obtain ⟨hfixed, hopens⟩ := Bool.and_eq_true_iff.1 h
  rw [isEnd, isFixed_ofList hfixed, Bool.and_true, decide_eq_true_iff, OpensPlain,
    String.toList_ofList]
  exact hopens

theorem isMiddle_quoted (h : (fixedChars cs && (opensPlain cs && staysFree true cs)) = true) :
    isMiddle (String.ofList cs) = true := by
  obtain ⟨hfixed, hmeets⟩ := Bool.and_eq_true_iff.1 h
  obtain ⟨hopens, hfree⟩ := Bool.and_eq_true_iff.1 hmeets
  rw [isMiddle, isStart_quoted (Bool.and_eq_true_iff.2 ⟨hfixed, hfree⟩),
    isEnd_quoted (Bool.and_eq_true_iff.2 ⟨hfixed, hopens⟩)]
  rfl

theorem fixedChars_of_isPlain (h : cs.all isPlain = true) : fixedChars cs = true := by
  rw [fixedChars, outlineFrom_of_isPlain (List.all_eq_true.1 h), Option.any_some, List.all_map]
  exact List.all_eq_true.2 fun _ _ => rfl

theorem isStart_ofList (h : (cs.all isPlain && staysFree true cs) = true) :
    isStart (String.ofList cs) = true := by
  obtain ⟨hplain, hfree⟩ := Bool.and_eq_true_iff.1 h
  exact isStart_quoted (Bool.and_eq_true_iff.2 ⟨fixedChars_of_isPlain hplain, hfree⟩)

theorem isEnd_ofList (h : (cs.all isPlain && opensPlain cs) = true) :
    isEnd (String.ofList cs) = true := by
  obtain ⟨hplain, hopens⟩ := Bool.and_eq_true_iff.1 h
  exact isEnd_quoted (Bool.and_eq_true_iff.2 ⟨fixedChars_of_isPlain hplain, hopens⟩)

theorem isMiddle_ofList (h : (cs.all isPlain && (opensPlain cs && staysFree true cs)) = true) :
    isMiddle (String.ofList cs) = true := by
  obtain ⟨hplain, hmeets⟩ := Bool.and_eq_true_iff.1 h
  exact isMiddle_quoted (Bool.and_eq_true_iff.2 ⟨fixedChars_of_isPlain hplain, hmeets⟩)

/-- Texts without quotes stay, wherever they stand. -/
theorem respelled_ofList (h : cs.all isPlain = true) :
    Respelled σ (String.ofList cs) (String.ofList cs) :=
  respelled_self (isFixed_ofList (fixedChars_of_isPlain h))

end Characters

theorem respelled_identifier (name : String) :
    Respelled σ (identifier name) (identifier (σ name)) :=
  ⟨_, _, outline?_identifier name, outline?_identifier (σ name), .cons (.name name) .nil⟩

theorem respelled_literal (s : String) : Respelled σ (literal s) (literal (σ s)) :=
  ⟨_, _, outline?_literal s, outline?_literal (σ s), .cons (.literal s) .nil⟩

/-- The mark of deleted rows keeps its name. -/
theorem respelled_mark : Respelled σ (identifier deletedMark) (identifier deletedMark) :=
  ⟨_, _, outline?_identifier deletedMark, outline?_identifier deletedMark,
    forall₂_renames (by simp [Stretch.isFixed])⟩

theorem Respelled.append (h : Respelled σ s t) (h' : Respelled σ s' t')
    (hs : OpensPlain s' ∨ StaysFree s) (ht : OpensPlain t' ∨ StaysFree t) :
    Respelled σ (s ++ s') (t ++ t') := by
  obtain ⟨ps, qs, hps, hqs, hall⟩ := h
  obtain ⟨ps', qs', hps', hqs', hall'⟩ := h'
  exact ⟨_, _, outline?_append hps hps' hs, outline?_append hqs hqs' ht,
    List.rel_append hall hall'⟩

/-- A text without names before both. -/
theorem Respelled.lead (h : Respelled σ s t) (before : String) (hbefore : isStart before = true) :
    Respelled σ (before ++ s) (before ++ t) := by
  obtain ⟨hfree, hfixed⟩ := Bool.and_eq_true_iff.1 hbefore
  have hfree := of_decide_eq_true hfree
  exact (respelled_self hfixed).append h (.inr hfree) (.inr hfree)

/-- A text without names behind both. -/
theorem Respelled.tail (h : Respelled σ s t) (after : String) (hafter : isEnd after = true) :
    Respelled σ (s ++ after) (t ++ after) := by
  obtain ⟨hopens, hfixed⟩ := Bool.and_eq_true_iff.1 hafter
  have hopens := of_decide_eq_true hopens
  exact h.append (respelled_self hfixed) (.inl hopens) (.inl hopens)

/-- A text without names between two texts. -/
theorem Respelled.between (h : Respelled σ s t) (middle : String) (h' : Respelled σ s' t')
    (hmiddle : isMiddle middle = true) :
    Respelled σ (s ++ (middle ++ s')) (t ++ (middle ++ t')) := by
  obtain ⟨hstarts, hends⟩ := Bool.and_eq_true_iff.1 hmiddle
  have hopens := of_decide_eq_true (Bool.and_eq_true_iff.1 hends).1
  exact h.append (h'.lead middle hstarts) (.inl (hopens.append _)) (.inl (hopens.append _))

theorem congruent_respelled : Congruent (Respelled σ) isStart isEnd where
  nothing := respelled_ofList (by decide)
  lead hbefore h := h.lead _ hbefore
  tail hafter h := h.tail _ hafter
  between hstarts hends h h' := h.between _ h' (Bool.and_eq_true_iff.2 ⟨hstarts, hends⟩)

/-! ## Columns and tables -/

theorem respelled_aliasName (a : Alias) : Respelled σ (aliasName a) (aliasName a) := by
  refine respelled_of_isPlain fun c hc => ?_
  rw [toList_aliasName] at hc
  rcases List.mem_cons.1 hc with rfl | hc
  · decide
  · simp [isPlain, isWordChar_of_mem_toDigits hc]

/-- The same column of a table, whatever is between its quotes. -/
theorem respelled_columnSql (a : Alias) {name name' : String}
    (h : Respelled σ (identifier name) (identifier name')) :
    Respelled σ (Column.mk a name).sql (Column.mk a name').sql := by
  rw [Column.sql, Column.sql, String.append_assoc, String.append_assoc]
  exact (respelled_aliasName a).between "." h (isMiddle_ofList (by decide))

theorem respelled_tableSql (name : String) (a : Alias) :
    Respelled σ (tableSql name a) (tableSql (σ name) a) := by
  rw [tableSql, tableSql, String.append_assoc, String.append_assoc]
  exact (respelled_identifier name).between " AS " (respelled_aliasName a)
    (isMiddle_ofList (by decide))

theorem respelled_constant (b : Bool) :
    Respelled σ (if b then "TRUE" else "FALSE") (if b then "TRUE" else "FALSE") := by
  cases b with
  | true => exact respelled_ofList (by decide)
  | false => exact respelled_ofList (by decide)

/-- No text before a part of a condition has a name in it. -/
theorem isStart_of_mem : ∀ s ∈ leads, isStart s = true := by
  simp only [leads, List.forall_mem_cons]
  and_intros
  all_goals first | exact isStart_ofList (by decide) | exact List.forall_mem_nil _

/-- Nor has one behind it. -/
theorem isEnd_of_mem : ∀ s ∈ tails, isEnd s = true := by
  simp only [tails, List.forall_mem_cons]
  and_intros
  all_goals
    first
    | exact isEnd_ofList (by decide)
    | exact List.forall_mem_nil _
    -- the texts for empty values stand in quotes
    | exact isEnd_quoted (by decide +kernel)

/-- **Columns and tables can have other names wherever conditions name them.** -/
theorem exchange_respelled : Exchange (Respelled σ) isStart isEnd σ id where
  toCongruent := congruent_respelled
  column c := respelled_columnSql c.tableAlias (respelled_identifier c.name)
  mark a := respelled_columnSql a respelled_mark
  table := respelled_tableSql
  constant := respelled_constant
  starts_of_mem := isStart_of_mem
  ends_of_mem := isEnd_of_mem

end Warden.Sql
