import Mathlib.Data.List.TakeWhile
import Warden.Text.Basic
import Warden.Text.Blank

/-! # Dotted paths

A list of pieces without the separator is what its joined text is cut into (**`split_join`**), so
such lists and their texts are two forms of one path. Blanks around a text reach its first and its
last piece only: once the pieces are trimmed, it makes no difference whether the text was trimmed
before it was cut (**`map_trim_split_trim`**). -/

namespace Warden.Text

variable {sep : Char}

/-! ## Joining and cutting -/

/-- Pieces without the separator are found again when their joined text is cut. -/
theorem split_join {pieces : List String} (hne : pieces ≠ [])
    (hpieces : ∀ piece ∈ pieces, sep ∉ piece.toList) :
    split sep (join (String.singleton sep) pieces) = pieces := by
  rw [join, split]
  induction pieces with
  | nil => exact absurd rfl hne
  | cons piece rest ih =>
      obtain ⟨hpiece, hrest⟩ := List.forall_mem_cons.1 hpieces
      cases rest with
      | nil =>
          rw [String.intercalate_singleton, splitChars_of_notMem hpiece]
          simp
      | cons next rest =>
          have hchars : (String.intercalate (String.singleton sep) (piece :: next :: rest)).toList =
              piece.toList ++
                sep :: (String.intercalate (String.singleton sep) (next :: rest)).toList := by
            rw [String.intercalate_cons_cons]
            simp
          rw [hchars, splitChars_append hpiece, List.map_cons, ih (List.cons_ne_nil _ _) hrest,
            String.ofList_toList]

/-- A text without the separator is its own only piece. -/
theorem split_of_notMem {s : String} (h : sep ∉ s.toList) : split sep s = [s] := by
  rw [split, splitChars_of_notMem h, List.map_singleton, String.ofList_toList]

/-- The pieces of two lists with a separator between them are those of both. -/
theorem splitChars_append_sep (cs rest : List Char) :
    splitChars sep (cs ++ sep :: rest) = splitChars sep cs ++ splitChars sep rest := by
  induction cs with
  | nil =>
      rw [List.nil_append, splitChars, splitChars, if_pos rfl]
      rfl
  | cons c cs ih =>
      rw [List.cons_append, splitChars, splitChars, ih]
      split
      · rfl
      · cases hcs : splitChars sep cs with
        | nil => exact absurd hcs (splitChars_ne_nil sep cs)
        | cons piece pieces => rfl

/-- The pieces of two texts with a dot between them are those of both. -/
theorem split_append_dot (s t : String) :
    split '.' (s ++ "." ++ t) = split '.' s ++ split '.' t := by
  have hchars : (s ++ "." ++ t).toList = s.toList ++ '.' :: t.toList := by simp
  rw [split, hchars, splitChars_append_sep, List.map_append]
  rfl

/-- What stands before the first piece belongs to it. -/
theorem exists_splitChars_append_left {before : List Char} (h : sep ∉ before) (cs : List Char) :
    ∃ first pieces, splitChars sep cs = first :: pieces ∧
      splitChars sep (before ++ cs) = (before ++ first) :: pieces := by
  induction before with
  | nil =>
      cases hcs : splitChars sep cs with
      | nil => exact absurd hcs (splitChars_ne_nil sep cs)
      | cons first pieces => exact ⟨first, pieces, rfl, hcs⟩
  | cons b before ih =>
      obtain ⟨hb, hbefore⟩ := not_or.1 (mt List.mem_cons.2 h)
      obtain ⟨first, pieces, hcs, hall⟩ := ih hbefore
      refine ⟨first, pieces, hcs, ?_⟩
      rw [List.cons_append, splitChars, if_neg (Ne.symm hb), hall]
      rfl

/-- What stands after the last piece belongs to it. -/
theorem exists_splitChars_append_right {after : List Char} (h : sep ∉ after) (cs : List Char) :
    ∃ pieces last, splitChars sep cs = pieces ++ [last] ∧
      splitChars sep (cs ++ after) = pieces ++ [last ++ after] := by
  induction cs with
  | nil => exact ⟨[], [], rfl, splitChars_of_notMem h⟩
  | cons c cs ih =>
      obtain ⟨pieces, last, hcs, hall⟩ := ih
      by_cases hc : c = sep
      · refine ⟨[] :: pieces, last, ?_, ?_⟩
        · rw [splitChars, if_pos hc, hcs]
          rfl
        · rw [List.cons_append, splitChars, if_pos hc, hall]
          rfl
      · -- the character joins the first piece, which may be the last one
        cases pieces with
        | nil =>
            refine ⟨[], c :: last, ?_, ?_⟩
            · rw [splitChars, if_neg hc, hcs]
              rfl
            · rw [List.cons_append, splitChars, if_neg hc, hall]
              rfl
        | cons piece pieces =>
            refine ⟨(c :: piece) :: pieces, last, ?_, ?_⟩
            · rw [splitChars, if_neg hc, hcs]
              rfl
            · rw [List.cons_append, splitChars, if_neg hc, hall]
              rfl

/-! ## Blanks -/

/-- Blanks before a text are trimmed. -/
theorem trimChars_append_left {before : List Char} (h : ∀ c ∈ before, isBlank c = true)
    (cs : List Char) : trimChars (before ++ cs) = trimChars cs := by
  rw [trimChars, List.dropWhile_append_of_pos h, trimChars]

/-- Blanks after a text are trimmed. -/
theorem trimChars_append_right {after : List Char} (h : ∀ c ∈ after, isBlank c = true)
    (cs : List Char) : trimChars (cs ++ after) = trimChars cs := by
  rw [trimChars, trimChars, List.dropWhile_append]
  split
  case isTrue hcs =>
    rw [List.isEmpty_iff.1 hcs, List.dropWhile_eq_nil_iff.2 h]
  case isFalse =>
    rw [List.reverse_append,
      List.dropWhile_append_of_pos fun c hc => h c (List.mem_reverse.1 hc)]

/-- A text is its trimmed part between blanks. -/
theorem exists_trimChars (cs : List Char) :
    ∃ before after, cs = before ++ (trimChars cs ++ after) ∧
      (∀ c ∈ before, isBlank c = true) ∧ ∀ c ∈ after, isBlank c = true := by
  refine ⟨cs.takeWhile isBlank, ((cs.dropWhile isBlank).reverse.takeWhile isBlank).reverse, ?_,
    fun c hc => List.all_eq_true.1 List.all_takeWhile c hc, fun c hc =>
      List.all_eq_true.1 List.all_takeWhile c (List.mem_reverse.1 hc)⟩
  rw [trimChars, ← List.reverse_append, List.takeWhile_append_dropWhile, List.reverse_reverse,
    List.takeWhile_append_dropWhile]

/-- Once the pieces of a list of characters are trimmed, it does not matter whether the list was. -/
theorem map_trimChars_splitChars (hsep : isBlank sep = false) (cs : List Char) :
    (splitChars sep (trimChars cs)).map trimChars = (splitChars sep cs).map trimChars := by
  obtain ⟨before, after, hcs, hbefore, hafter⟩ := exists_trimChars cs
  generalize trimChars cs = middle at hcs
  subst hcs
  have hnot {blank : List Char} (h : ∀ c ∈ blank, isBlank c = true) : sep ∉ blank := by
    intro hmem
    rw [h sep hmem] at hsep
    cases hsep
  obtain ⟨pieces, last, hmiddle, hright⟩ := exists_splitChars_append_right (hnot hafter) middle
  obtain ⟨first, others, hothers, hleft⟩ :=
    exists_splitChars_append_left (hnot hbefore) (middle ++ after)
  -- the blanks stand in the last piece and in the first one
  calc (splitChars sep middle).map trimChars
      = (splitChars sep (middle ++ after)).map trimChars := by
        rw [hmiddle, hright, List.map_append, List.map_append, List.map_singleton,
          List.map_singleton, trimChars_append_right hafter]
    _ = (splitChars sep (before ++ (middle ++ after))).map trimChars := by
        rw [hothers, hleft, List.map_cons, List.map_cons, trimChars_append_left hbefore]

/-- Once the pieces of a text are trimmed, it does not matter whether the text was. -/
theorem map_trim_split_trim (hsep : isBlank sep = false) (s : String) :
    (split sep (trim s)).map trim = (split sep s).map trim := by
  have htexts (css : List (List Char)) :
      (css.map String.ofList).map trim = (css.map trimChars).map String.ofList := by
    rw [List.map_map, List.map_map]
    refine List.map_congr_left fun cs _ => ?_
    show String.ofList (trimChars (String.ofList cs).toList) = String.ofList (trimChars cs)
    rw [String.toList_ofList]
  rw [split, split, htexts, htexts, trim, String.toList_ofList, map_trimChars_splitChars hsep]

end Warden.Text
