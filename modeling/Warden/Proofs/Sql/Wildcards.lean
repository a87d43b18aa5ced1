import Warden.Proofs.Filter.Completion
import Warden.Proofs.Sql.Like

/-! # Patterns with wildcards

A condition may compare a text with a pattern that has wildcards of its own. The database lets the
pattern span the text from its start to its end, and takes the character after a backslash as it is.
In memory a backslash stands for itself, and a line break at the end of the text may be left over
(**`LikePlace.cover_iff`**). In the database's words: in memory the backslashes of the pattern are
doubled, and it has to span the text, or what stands before the line break at its end.

So the two readings of a pattern without backslashes differ only on a text of which all but the last
line break is spanned. Those of a pattern with a backslash always differ on some text: the shortest
one that the database's reading spans (**`LikePlace.shortest`**) is too short for the other reading,
or has a percent sign where that one has the backslash. **`like_agrees_iff`** has the exact
conditions, for single texts and for all of them. -/

namespace Warden

namespace LikePlace

variable {same : Char → Char → Bool} {places : List LikePlace} {text : List Char}

/-! ## A line break at the end -/

/-- **What is covered in memory is spanned, or is spanned but for a line break at its end.** -/
theorem cover_iff : cover same places text = true ↔
    ∃ shown, (text = shown ∨ text = shown ++ ['\n']) ∧ Spans same places shown := by
  induction places generalizing text with
  | nil =>
      rw [cover, Bool.or_eq_true, List.isEmpty_iff, beq_iff_eq]
      constructor
      · intro htext
        exact ⟨[], htext, .nil⟩
      · rintro ⟨_, htext, ⟨⟩⟩
        exact htext
  | cons place places ih =>
      cases place with
      | any =>
          rw [cover, skipSome_iff]
          constructor
          · rintro ⟨skipped, left, rfl, h⟩
            obtain ⟨shown, hleft, hshown⟩ := ih.1 h
            -- what is left out at the front changes nothing at the end
            refine ⟨skipped ++ shown, ?_, .any skipped hshown⟩
            rcases hleft with rfl | rfl
            · exact .inl rfl
            · exact .inr (List.append_assoc ..).symm
          · rintro ⟨_, htext, _ | ⟨skipped, hshown⟩⟩
            rcases htext with rfl | rfl
            · exact ⟨skipped, _, rfl, ih.2 ⟨_, .inl rfl, hshown⟩⟩
            · exact ⟨skipped, _, List.append_assoc .., ih.2 ⟨_, .inr rfl, hshown⟩⟩
      | one =>
          cases text with
          | nil =>
              refine iff_of_false Bool.false_ne_true ?_
              rintro ⟨_, htext, _ | _ | ⟨c, hshown⟩⟩
              simp at htext
          | cons c text =>
              rw [cover, ih]
              constructor
              · rintro ⟨shown, htext, hshown⟩
                exact ⟨c :: shown, htext.imp (congrArg _) (congrArg _), .one c hshown⟩
              · rintro ⟨_, htext, _ | _ | ⟨d, hshown⟩⟩
                exact ⟨_, htext.imp List.tail_eq_of_cons_eq List.tail_eq_of_cons_eq, hshown⟩
      | char p =>
          cases text with
          | nil =>
              refine iff_of_false Bool.false_ne_true ?_
              rintro ⟨_, htext, _ | _ | _ | ⟨hc, hshown⟩⟩
              simp at htext
          | cons c text =>
              rw [cover, Bool.and_eq_true, ih]
              constructor
              · rintro ⟨hc, shown, htext, hshown⟩
                exact ⟨c :: shown, htext.imp (congrArg _) (congrArg _), .char hc hshown⟩
              · rintro ⟨_, htext, _ | _ | _ | ⟨hc, hshown⟩⟩
                have hhead := htext.elim List.head_eq_of_cons_eq List.head_eq_of_cons_eq
                refine ⟨hhead ▸ hc, _, ?_, hshown⟩
                exact htext.imp List.tail_eq_of_cons_eq List.tail_eq_of_cons_eq

/-! ## The shortest text -/

/-- The shortest text that places span: nothing for any characters, and one character for every
other place. -/
def shortest : List LikePlace → List Char
  | [] => []
  | .any :: places => shortest places
  | .one :: places => 'x' :: shortest places
  | .char c :: places => c :: shortest places

theorem shortest_cons (place : LikePlace) (places : List LikePlace) :
    shortest (place :: places) = shortest [place] ++ shortest places := by
  cases place <;> rfl

theorem spans_shortest (places : List LikePlace) : Spans (· == ·) places (shortest places) := by
  induction places with
  | nil => exact .nil
  | cons place places ih =>
      cases place with
      | any => exact .any [] ih
      | one => exact .one 'x' ih
      | char c => exact .char (beq_self_eq_true c) ih

/-- No text that places span is shorter. -/
theorem length_shortest_le (h : Spans same places text) :
    (shortest places).length ≤ text.length := by
  induction h with
  | nil => exact Nat.le_refl 0
  | any skipped _ ih =>
      rw [shortest, List.length_append]
      omega
  | one c _ ih => exact Nat.succ_le_succ ih
  | char hc _ ih => exact Nat.succ_le_succ ih

end LikePlace

namespace Sql

open LikePlace

/-! ## Two readings of a backslash -/

/-- With its backslashes doubled, a pattern has the places of its single characters. -/
theorem likePlaces?_doubled (p : String) :
    likePlaces? (escaped '\\' p).toList = some (ofText p) := by
  rw [escaped, Text.expandChars, String.toList_ofList, ofText]
  induction p.toList with
  | nil => rfl
  | cons c cs ih =>
      rw [List.flatMap_cons, List.map_cons]
      by_cases hc : c = '\\'
      · subst hc
        rw [if_pos rfl, List.cons_append, List.singleton_append, likePlaces?, ih]
        rfl
      · rw [if_neg hc, List.singleton_append, likePlaces?_cons hc, ih]
        rfl

/-- A text without the character stays as it is. -/
theorem escaped_of_notMem {c : Char} {s : String} (h : c ∉ s.toList) : escaped c s = s := by
  have hchars : s.toList.flatMap (fun d => if d = c then ['\\', d] else [d]) = s.toList := by
    conv_rhs => rw [← List.flatMap_singleton' s.toList]
    refine List.flatMap_congr fun d hd => if_neg ?_
    rintro rfl
    exact h hd
  rw [escaped, Text.expandChars, hchars, String.ofList_toList]

/-- What the database's reading of a pattern needs is no longer than what its characters need. -/
theorem length_shortest_likePlaces? {cs : List Char} {places : List LikePlace}
    (h : likePlaces? cs = some places) :
    (shortest places).length ≤ (shortest (cs.map ofChar)).length := by
  fun_induction likePlaces? cs generalizing places with
  | case1 =>
      cases h
      exact Nat.le_refl 0
  | case2 => cases h
  | case3 c cs ih =>
      obtain ⟨rest, hrest, rfl⟩ := Option.map_eq_some_iff.1 h
      -- the backslash counts for one character, and so does the place that the two stand for
      have hraw : shortest (('\\' :: c :: cs).map ofChar) =
          '\\' :: (shortest [ofChar c] ++ shortest (cs.map ofChar)) := by
        rw [List.map_cons, List.map_cons, ← shortest_cons]
        rfl
      have hle := ih hrest
      rw [hraw, shortest, List.length_cons, List.length_cons, List.length_append]
      omega
  | case4 c cs hlast hmore ih =>
      obtain ⟨rest, hrest, rfl⟩ := Option.map_eq_some_iff.1 h
      rw [List.map_cons, shortest_cons, shortest_cons (ofChar c) (cs.map ofChar),
        List.length_append, List.length_append]
      exact Nat.add_le_add_left (ih hrest) _

/-- **A pattern with a backslash is read differently**: the shortest text that the database's
reading spans is not spanned by the places of its characters. -/
theorem not_spans_shortest {cs : List Char} {places : List LikePlace}
    (h : likePlaces? cs = some places) (hbackslash : '\\' ∈ cs) :
    ¬ Spans (· == ·) (cs.map ofChar) (shortest places) := by
  fun_induction likePlaces? cs generalizing places with
  | case1 => cases hbackslash
  | case2 => cases h
  | case3 c cs ih =>
      obtain ⟨rest, hrest, rfl⟩ := Option.map_eq_some_iff.1 h
      intro hspans
      have hraw : ('\\' :: c :: cs).map ofChar = .char '\\' :: ofChar c :: cs.map ofChar := rfl
      rw [hraw, shortest] at hspans
      obtain _ | _ | _ | ⟨hc, hspans⟩ := hspans
      -- the text begins with a backslash only if two of them were there, and then it is too short
      obtain rfl : '\\' = c := beq_iff_eq.1 hc
      have hlong : (shortest (cs.map ofChar)).length + 1 ≤ (shortest rest).length :=
        length_shortest_le hspans
      have hshort := length_shortest_likePlaces? hrest
      omega
  | case4 c cs hlast hmore ih =>
      obtain ⟨rest, hrest, rfl⟩ := Option.map_eq_some_iff.1 h
      have hc : c ≠ '\\' := by
        rintro rfl
        cases cs with
        | nil => exact hlast rfl rfl
        | cons d ds => exact hmore d ds rfl rfl
      have hbackslash : '\\' ∈ cs := (List.mem_cons.1 hbackslash).resolve_left (Ne.symm hc)
      intro hspans
      rw [List.map_cons] at hspans
      cases hplace : ofChar c with
      | any =>
          rw [hplace, shortest, spans_any] at hspans
          obtain ⟨skipped, left, hleft, hspans⟩ := hspans
          -- nothing is left out, as the text is not longer than needed
          have hlong := length_shortest_le hspans
          have hshort := length_shortest_likePlaces? hrest
          have hlength := congrArg List.length hleft
          rw [List.length_append] at hlength
          obtain rfl : skipped = [] := List.length_eq_zero_iff.1 (by omega)
          rw [List.nil_append] at hleft
          exact ih hrest hbackslash (hleft ▸ hspans)
      | one =>
          rw [hplace, shortest] at hspans
          obtain _ | _ | ⟨_, hspans⟩ := hspans
          exact ih hrest hbackslash hspans
      | char d =>
          rw [hplace, shortest] at hspans
          obtain _ | _ | _ | ⟨_, hspans⟩ := hspans
          exact ih hrest hbackslash hspans

/-- The shortest text that the database's reading of a pattern with a backslash spans is not covered
in memory. -/
theorem cover_shortest_eq_false {cs : List Char} {places : List LikePlace}
    (h : likePlaces? cs = some places) (hbackslash : '\\' ∈ cs) :
    cover (· == ·) (cs.map ofChar) (shortest places) = false := by
  rw [← Bool.not_eq_true, cover_iff]
  rintro ⟨shown, htext | htext, hspans⟩
  · exact not_spans_shortest h hbackslash (htext ▸ hspans)
  · have hlong := length_shortest_le hspans
    have hshort := length_shortest_likePlaces? h
    have hlength := congrArg List.length htext
    rw [List.length_append, List.length_singleton] at hlength
    omega

/-- In memory a pattern covers a text iff with its backslashes doubled it is like the text, or like
what stands before the line break at its end. -/
theorem likes_iff {p t : String} : likes p t = true ↔
    ∃ shown, (t = shown ∨ t = shown ++ "\n") ∧
      like? (· == ·) (escaped '\\' p) shown = some true := by
  have hlike (shown : List Char) :
      like? (· == ·) (escaped '\\' p) (String.ofList shown) = some true ↔
        Spans (· == ·) (ofText p) shown := by
    rw [like?, likePlaces?_doubled, Option.map_some, Option.some_inj, String.toList_ofList,
      spans_iff]
  have htext (shown : List Char) : (t.toList = shown ∨ t.toList = shown ++ ['\n']) ↔
      (t = String.ofList shown ∨ t = String.ofList shown ++ "\n") := by
    rw [← String.toList_inj, ← String.toList_inj, String.toList_append, String.toList_ofList]
    rfl
  rw [likes, cover_iff]
  constructor
  · rintro ⟨shown, ht, hspans⟩
    exact ⟨String.ofList shown, (htext shown).1 ht, (hlike shown).2 hspans⟩
  · rintro ⟨shown, ht, h⟩
    rw [← @String.ofList_toList shown] at ht h
    exact ⟨shown.toList, (htext _).2 ht, (hlike _).1 h⟩

end Sql

/-! ## The two answers -/

open Sql

namespace Operator

/-- On a text, memory gives the answer to the operator with a pattern that the database gives to the
test it becomes. -/
def AnswersAlike (op : Operator) (p t : String) : Prop :=
  ∀ (anyCase : Char → Char → Bool) (row : TextRow) (o : Operand) (family : TypeFamily),
    row o = some t → ∃ q b, operatorPredicate op o family (.text p) = .ok (.test q) ∧
      op.test (.text t) (.text p) = .ok b ∧ q.likeTruth? anyCase row = some (.ofBool b)

variable {p t : String}

theorem answersAlike_like_iff :
    like.AnswersAlike p t ↔ like? (· == ·) p t = some (LikePlace.likes p t) := by
  constructor
  · intro h
    obtain ⟨q, b, hq, hb, htruth⟩ := h (· == ·) (fun _ => some t) ⟨⟨0, p⟩, none⟩ .text rfl
    cases hq
    cases hb
    obtain ⟨found, hfound, hsame⟩ := Option.map_eq_some_iff.1 htruth
    rw [hfound, Truth.ofBool_inj.1 hsame]
    rfl
  · intro h anyCase row o family hrow
    refine ⟨_, _, rfl, rfl, ?_⟩
    rw [Test.likeTruth?, hrow, likeTruth?, h, Option.map_some]
    rfl

/-- The opposite operators have the opposite answers in memory and in the database. -/
theorem answersAlike_notLike_iff : notLike.AnswersAlike p t ↔ like.AnswersAlike p t := by
  rw [answersAlike_like_iff]
  constructor
  · intro h
    obtain ⟨q, b, hq, hb, htruth⟩ := h (· == ·) (fun _ => some t) ⟨⟨0, p⟩, none⟩ .text rfl
    cases hq
    cases hb
    obtain ⟨truth, hlike, hnot⟩ := Option.map_eq_some_iff.1 htruth
    obtain ⟨found, hfound, rfl⟩ := Option.map_eq_some_iff.1 hlike
    rw [← Truth.ofBool_not, Truth.ofBool_inj] at hnot
    rw [hfound, Bool.not_inj hnot]
    rfl
  · intro h anyCase row o family hrow
    refine ⟨_, _, rfl, rfl, ?_⟩
    rw [Test.likeTruth?, hrow, likeTruth?, h, Option.map_some, Option.map_some, ← Truth.ofBool_not]
    rfl

end Operator

/-- A pattern without backslashes is read alike on a text unless memory leaves a line break over
that the database has no place for. -/
theorem answersAlike_iff_of_notMem {p t : String} (hp : '\\' ∉ p.toList) :
    Operator.like.AnswersAlike p t ↔ ∀ shown, t = shown ++ "\n" →
      like? (· == ·) p shown = some true → like? (· == ·) p t = some true := by
  have hlikes : LikePlace.likes p t = true ↔
      ∃ shown, (t = shown ∨ t = shown ++ "\n") ∧ like? (· == ·) p shown = some true := by
    rw [likes_iff, escaped_of_notMem hp]
  obtain ⟨b, hb⟩ : ∃ b, like? (· == ·) p t = some b := by
    rw [← escaped_of_notMem hp, like?, likePlaces?_doubled]
    exact ⟨_, rfl⟩
  rw [Operator.answersAlike_like_iff, hb, Option.some_inj]
  constructor
  · rintro rfl shown ht hshown
    rw [hlikes.2 ⟨shown, .inr ht, hshown⟩]
  · intro h
    cases b with
    | true => exact (hlikes.2 ⟨t, .inl rfl, hb⟩).symm
    | false =>
        refine (Bool.eq_false_iff.2 fun hcovers => ?_).symm
        obtain ⟨shown, rfl | ht, hshown⟩ := hlikes.1 hcovers
        · rw [hb] at hshown
          cases hshown
        · cases h shown ht hshown

/-- **When patterns with wildcards mean the same.** In memory a pattern holds of a text iff the
database finds it, with its backslashes doubled, like the text or like what stands before the line
break at its end; the opposite operator has the opposite answer. So on a text memory and the
database agree about a pattern without backslashes iff the pattern is like the whole text wherever
it is like what stands before the line break at its end. They agree about a pattern on all texts iff
it has no backslash and stays like every text that a line break is put behind. -/
theorem like_agrees_iff (p : String) :
    (∀ t, ∃ b, Operator.like.test (.text t) (.text p) = .ok b ∧
      Operator.notLike.test (.text t) (.text p) = .ok (!b) ∧
      (b = true ↔ ∃ shown, (t = shown ∨ t = shown ++ "\n") ∧
        like? (· == ·) (escaped '\\' p) shown = some true)) ∧
    ('\\' ∉ p.toList → ∀ t,
      (Operator.like.AnswersAlike p t ∧ Operator.notLike.AnswersAlike p t ↔
        ∀ shown, t = shown ++ "\n" → like? (· == ·) p shown = some true →
          like? (· == ·) p t = some true)) ∧
    ((∀ t, Operator.like.AnswersAlike p t ∧ Operator.notLike.AnswersAlike p t) ↔
      '\\' ∉ p.toList ∧ ∀ t, like? (· == ·) p t = some true →
        like? (· == ·) p (t ++ "\n") = some true) := by
  have hboth (t : String) : Operator.like.AnswersAlike p t ∧ Operator.notLike.AnswersAlike p t ↔
      Operator.like.AnswersAlike p t := by
    rw [Operator.answersAlike_notLike_iff, and_self]
  simp only [hboth]
  refine ⟨fun t => ⟨_, rfl, rfl, likes_iff⟩, fun hp t => answersAlike_iff_of_notMem hp, ?_, ?_⟩
  · intro h
    have hp : '\\' ∉ p.toList := by
      intro hbackslash
      -- a pattern that cannot be read has no answer, and any other one the wrong one on some text
      cases hplaces : likePlaces? p.toList with
      | none =>
          have hlike := Operator.answersAlike_like_iff.1 (h "")
          rw [like?, hplaces] at hlike
          cases hlike
      | some places =>
          let t := String.ofList (LikePlace.shortest places)
          have ht : t.toList = LikePlace.shortest places := String.toList_ofList
          have hlike := Operator.answersAlike_like_iff.1 (h t)
          rw [like?, hplaces, Option.map_some, Option.some_inj, LikePlace.likes, ht] at hlike
          have hspans := LikePlace.spans_iff.2 (LikePlace.spans_shortest places)
          have hcovers := cover_shortest_eq_false hplaces hbackslash
          exact Bool.false_ne_true (hcovers.symm.trans (hlike.symm.trans hspans))
    refine ⟨hp, fun t ht => ?_⟩
    exact (answersAlike_iff_of_notMem hp).1 (h (t ++ "\n")) t rfl ht
  · rintro ⟨hp, h⟩ t
    rw [answersAlike_iff_of_notMem hp]
    rintro shown rfl hshown
    exact h shown hshown

/-- In memory the pattern of one letter also holds of the letter with a line break behind it, and a
percent sign after a backslash does not stand for a percent sign. The database sees both
differently. -/
theorem letter_like_line :
    Operator.like.test (.text "a\n") (.text "a") = .ok true ∧
      like? (· == ·) "a" "a\n" = some false ∧
    Operator.like.test (.text "%") (.text "\\%") = .ok false ∧
      like? (· == ·) "\\%" "%" = some true :=
  ⟨by cbv, by cbv, by cbv, by cbv⟩

end Warden
