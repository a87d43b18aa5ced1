import Mathlib.Data.List.Basic
import Mathlib.Tactic.FinCases
import Warden.Json.Reader

/-! # Where a JSON text is too long to be read

The reader gives up on a text for two reasons: the text is not JSON, or an integer in it has too
many digits. The second one is no matter of grammar, and it takes a run of more digits than the
limit, somewhere in the text (**`Json.read_too_many_digits`**): every part of the reader leaves an
end of what it was given (**`Json.LeavesEnd`**), so a run found there is found in the text. A text
that is such a run and nothing else is given up (**`Json.read_of_long_integer`**). -/

namespace Warden.Json

/-- Somewhere there are more digits in a row than are read. -/
def HasLongRun (cs : List Char) : Prop :=
  ∃ run, run <:+: cs ∧ digitLimit < run.length ∧ ∀ c ∈ run, '0' ≤ c ∧ c ≤ '9'

/-- What is left unread is an end of the text, and the text has a long run of digits if a number in
it is too long. -/
def LeavesEnd {α : Type} (cs : List Char) (x : Except ReadError (α × List Char)) : Prop :=
  (∀ a rest, x = .ok (a, rest) → rest <:+ cs) ∧ (x = .error .tooManyDigits → HasLongRun cs)

variable {α β : Type} {cs rest : List Char}

/-! ## Putting readers together -/

/-- A long run at the end of a text is one of the text. -/
theorem HasLongRun.of_suffix (h : HasLongRun rest) (hrest : rest <:+ cs) : HasLongRun cs := by
  obtain ⟨run, hrun, hdigits⟩ := h
  exact ⟨run, hrun.trans hrest.isInfix, hdigits⟩

theorem leavesEnd_ok {a : α} (h : rest <:+ cs) : LeavesEnd cs (.ok (a, rest)) := by
  constructor
  · intro b left heq
    cases heq
    exact h
  · intro heq
    cases heq

theorem leavesEnd_malformed : LeavesEnd cs (.error .malformed : Except ReadError (α × _)) :=
  ⟨nofun, nofun⟩

/-- Reading an end of the text leaves an end of the text. -/
theorem LeavesEnd.of_suffix {x : Except ReadError (α × List Char)} (h : LeavesEnd rest x)
    (hrest : rest <:+ cs) : LeavesEnd cs x :=
  ⟨fun a left hx => (h.1 a left hx).trans hrest, fun hx => (h.2 hx).of_suffix hrest⟩

theorem LeavesEnd.bind {x : Except ReadError (α × List Char)}
    {f : α × List Char → Except ReadError (β × List Char)} (hx : LeavesEnd cs x)
    (hf : ∀ a rest, rest <:+ cs → LeavesEnd cs (f (a, rest))) : LeavesEnd cs (x >>= f) := by
  rcases x with e | ⟨a, rest⟩
  · constructor
    · intro b left h
      cases h
    · intro h
      cases h
      exact hx.2 rfl
  · exact hf a rest (hx.1 a rest rfl)

theorem skipSpace_suffix (cs : List Char) : skipSpace cs <:+ cs :=
  List.dropWhile_suffix _

/-! ## Strings -/

theorem codeUnit?_suffix {unit : Nat} (h : codeUnit? cs = some (unit, rest)) : rest <:+ cs := by
  unfold codeUnit? at h
  split at h
  · next a b c d left =>
      simp only [Option.bind_eq_bind, Option.bind_eq_some_iff, Option.some.injEq,
        Prod.mk.injEq] at h
      obtain ⟨_, -, _, -, _, -, _, -, -, rfl⟩ := h
      exact ⟨[a, b, c, d], rfl⟩
  · cases h

theorem unitChar_suffix (unit : Nat) (cs : List Char) : (unitChar unit cs).2 <:+ cs := by
  rw [unitChar]
  split
  · split
    · next low rest h =>
        unfold lowUnit? at h
        split at h
        · next left =>
            simp only [Option.bind_eq_bind, Option.bind_eq_some_iff, Prod.exists,
              Option.ite_none_right_eq_some, Option.some.injEq, Prod.mk.injEq] at h
            obtain ⟨_, left', hunit, -, -, rfl⟩ := h
            exact (codeUnit?_suffix hunit).trans ⟨['\\', 'u'], rfl⟩
        · cases h
    · exact List.suffix_refl _
  · split <;> exact List.suffix_refl _

theorem readChars_leavesEnd (fuel : Nat) (cs : List Char) : LeavesEnd cs (readChars fuel cs) := by
  fun_induction readChars fuel cs with
  | case1 | case2 | case4 | case6 | case8 => exact leavesEnd_malformed
  | case3 => exact leavesEnd_ok (List.suffix_cons _ _)
  | case5 fuel text unit left hunit c rest hchar ih =>
      have hrest : rest <:+ '\\' :: 'u' :: text := by
        have hleft : (unitChar unit left).2 <:+ left := unitChar_suffix unit left
        rw [hchar] at hleft
        exact (hleft.trans (codeUnit?_suffix hunit)).trans ⟨['\\', 'u'], rfl⟩
      exact (ih.of_suffix hrest).bind fun _ _ => leavesEnd_ok
  | case7 fuel letter rest hno c hc ih =>
      exact (ih.of_suffix ⟨['\\', letter], rfl⟩).bind fun _ _ => leavesEnd_ok
  | case9 fuel c rest hquote hunit hshort hc ih =>
      exact (ih.of_suffix (List.suffix_cons _ _)).bind fun _ _ => leavesEnd_ok

theorem readString_leavesEnd (cs : List Char) : LeavesEnd cs (readString cs) :=
  (readChars_leavesEnd _ cs).bind fun _ _ => leavesEnd_ok

/-! ## Numbers -/

/-- The digits taken are a run in front of what is left. -/
theorem exists_run_of_takeDigits (cs : List Char) : ∃ run, cs = run ++ (takeDigits cs).2 ∧
    run.length = (takeDigits cs).1.length ∧ ∀ c ∈ run, '0' ≤ c ∧ c ≤ '9' := by
  induction cs with
  | nil => exact ⟨[], rfl, rfl, List.forall_mem_nil _⟩
  | cons c cs ih =>
      rw [takeDigits]
      by_cases hc : '0' ≤ c ∧ c ≤ '9'
      · rw [if_pos hc]
        obtain ⟨run, hcs, hlength, hrun⟩ := ih
        refine ⟨c :: run, ?_, ?_, List.forall_mem_cons.2 ⟨hc, hrun⟩⟩
        · exact congrArg (c :: ·) hcs
        · exact congrArg (· + 1) hlength
      · rw [if_neg hc]
        exact ⟨[], rfl, rfl, List.forall_mem_nil _⟩

theorem takeDigits_suffix (cs : List Char) : (takeDigits cs).2 <:+ cs := by
  obtain ⟨run, hcs, -, -⟩ := exists_run_of_takeDigits cs
  exact ⟨run, hcs.symm⟩

/-- More digits before the point than are read are a long run. -/
theorem takeWhole?_leavesEnd {whole : List Nat} (h : takeWhole? cs = some (whole, rest)) :
    rest <:+ cs ∧ (digitLimit < whole.length → HasLongRun cs) := by
  unfold takeWhole? at h
  split at h
  · cases h
    refine ⟨List.suffix_cons _ _, ?_⟩
    intro hlong
    exact absurd hlong (by decide)
  · split at h
    · cases h
    · have hfound : takeDigits cs = (whole, rest) := Option.some.inj h
      obtain ⟨run, hcs, hlength, hrun⟩ := exists_run_of_takeDigits cs
      rw [hfound] at hcs hlength
      refine ⟨⟨run, hcs.symm⟩, ?_⟩
      intro hlong
      exact ⟨run, ⟨[], rest, hcs.symm⟩, hlength ▸ hlong, hrun⟩

theorem takeFraction_suffix (cs : List Char) : (takeFraction cs).2 <:+ cs := by
  unfold takeFraction
  split
  · split
    · exact List.suffix_refl _
    · exact (takeDigits_suffix _).trans (List.suffix_cons _ _)
  · exact List.suffix_refl _

theorem takeExponent_suffix (cs : List Char) : (takeExponent cs).2 <:+ cs := by
  cases cs with
  | nil => exact List.suffix_refl _
  | cons e cs =>
      simp only [takeExponent]
      split
      · split
        · exact List.suffix_refl _
        · next ds rest hne hdigits =>
            have hrest : rest <:+ cs := by
              -- the digits are taken behind the sign, if there is one
              have hafter : (ds, rest).2 <:+ _ := hdigits ▸ takeDigits_suffix _
              refine hafter.trans ?_
              split
              · exact List.suffix_cons _ _
              · exact List.suffix_cons _ _
              · exact List.suffix_refl _
            exact hrest.trans (List.suffix_cons _ _)
      · exact List.suffix_refl _

/-- A number is too long for its digits before the point alone. -/
theorem readNumber_leavesEnd (negative : Bool) (cs : List Char) :
    LeavesEnd cs (readNumber negative cs) := by
  rw [readNumber]
  cases hwhole : takeWhole? cs with
  | none => exact leavesEnd_malformed
  | some found =>
      obtain ⟨whole, rest⟩ := found
      obtain ⟨hrest, hlong⟩ := takeWhole?_leavesEnd hwhole
      have hleft : (takeExponent (takeFraction rest).2).2 <:+ cs :=
        (takeExponent_suffix _).trans ((takeFraction_suffix rest).trans hrest)
      dsimp only
      split
      · split
        · next h => exact ⟨nofun, fun _ => hlong h⟩
        · exact leavesEnd_ok hleft
      · exact leavesEnd_ok hleft

/-! ## Values -/

theorem readWord?_suffix {v : Value} (h : readWord? cs = some (v, rest)) : rest <:+ cs := by
  obtain ⟨word, -, hword⟩ := List.exists_of_findSome?_eq_some h
  obtain ⟨left, hleft, heq⟩ := Option.map_eq_some_iff.1 hword
  cases heq
  rw [afterWord?, Option.ite_none_right_eq_some] at hleft
  rw [← Option.some.inj hleft.2]
  exact List.drop_suffix _ _

theorem suffix_of_skipSpace {c : Char} (h : skipSpace cs = c :: rest) : rest <:+ cs :=
  (List.suffix_cons c rest).trans (h ▸ skipSpace_suffix cs)

mutual

theorem readValue_leavesEnd : ∀ (fuel : Nat) (cs : List Char), LeavesEnd cs (readValue fuel cs)
  | 0, _ => by
      rw [readValue]
      exact leavesEnd_malformed
  | fuel + 1, cs => by
      unfold readValue
      split
      · next found hword => exact leavesEnd_ok (readWord?_suffix hword)
      · split
        · next rest _ =>
            exact ((readString_leavesEnd rest).of_suffix (List.suffix_cons _ _)).bind
              fun _ _ => leavesEnd_ok
        · next rest _ =>
            have hrest : skipSpace rest <:+ '[' :: rest :=
              (skipSpace_suffix rest).trans (List.suffix_cons _ _)
            split
            · next left hleft =>
                exact leavesEnd_ok ((suffix_of_skipSpace hleft).trans (List.suffix_cons _ _))
            · exact ((readItems_leavesEnd fuel _).of_suffix hrest).bind fun _ _ => leavesEnd_ok
        · next rest _ =>
            have hrest : skipSpace rest <:+ '\x7b' :: rest :=
              (skipSpace_suffix rest).trans (List.suffix_cons _ _)
            split
            · next left hleft =>
                exact leavesEnd_ok ((suffix_of_skipSpace hleft).trans (List.suffix_cons _ _))
            · exact ((readMembers_leavesEnd fuel _).of_suffix hrest).bind fun _ _ => leavesEnd_ok
        · exact (readNumber_leavesEnd true _).of_suffix (List.suffix_cons _ _)
        · exact readNumber_leavesEnd false cs

theorem readItems_leavesEnd : ∀ (fuel : Nat) (cs : List Char), LeavesEnd cs (readItems fuel cs)
  | 0, _ => by
      rw [readItems]
      exact leavesEnd_malformed
  | fuel + 1, cs => by
      rw [readItems]
      refine (readValue_leavesEnd fuel cs).bind fun v rest hrest => ?_
      dsimp only
      split
      · next left hleft =>
          have hnext : skipSpace left <:+ cs :=
            (skipSpace_suffix left).trans ((suffix_of_skipSpace hleft).trans hrest)
          exact ((readItems_leavesEnd fuel _).of_suffix hnext).bind fun _ _ => leavesEnd_ok
      · next left hleft => exact leavesEnd_ok ((suffix_of_skipSpace hleft).trans hrest)
      · exact leavesEnd_malformed

theorem readMembers_leavesEnd :
    ∀ (fuel : Nat) (cs : List Char), LeavesEnd cs (readMembers fuel cs)
  | 0, _ => by
      rw [readMembers]
      exact leavesEnd_malformed
  | fuel + 1, cs => by
      unfold readMembers
      split
      · next text =>
          refine ((readString_leavesEnd text).of_suffix (List.suffix_cons _ _)).bind
            fun name rest hrest => ?_
          dsimp only
          split
          · next left hleft =>
              have hvalue : skipSpace left <:+ '"' :: text :=
                (skipSpace_suffix left).trans ((suffix_of_skipSpace hleft).trans hrest)
              refine ((readValue_leavesEnd fuel _).of_suffix hvalue).bind fun v rest hrest => ?_
              dsimp only
              split
              · next left hleft =>
                  have hnext : skipSpace left <:+ '"' :: text :=
                    (skipSpace_suffix left).trans ((suffix_of_skipSpace hleft).trans hrest)
                  exact ((readMembers_leavesEnd fuel _).of_suffix hnext).bind
                    fun _ _ => leavesEnd_ok
              · next left hleft => exact leavesEnd_ok ((suffix_of_skipSpace hleft).trans hrest)
              · exact leavesEnd_malformed
          · exact leavesEnd_malformed
      · exact leavesEnd_malformed

end

/-- **A text that is given up for its digits has too many of them in a row.** -/
theorem read_too_many_digits {s : String} (h : read s = .error .tooManyDigits) :
    HasLongRun s.toList := by
  have hvalue := (readValue_leavesEnd (2 * s.toList.length + 2) (skipSpace s.toList)).of_suffix
    (skipSpace_suffix s.toList)
  rw [read] at h
  cases hread : readValue (2 * s.toList.length + 2) (skipSpace s.toList) with
  | error e =>
      simp only [hread, bind, Except.bind] at h
      cases h
      exact hvalue.2 hread
  | ok found =>
      simp only [hread, bind, Except.bind] at h
      split at h <;> cases h

/-! ## Texts that are one long number -/

/-- Of digits alone nothing is left. -/
theorem takeDigits_of_forall (h : ∀ c ∈ cs, '0' ≤ c ∧ c ≤ '9') :
    ∃ digits, takeDigits cs = (digits, []) ∧ digits.length = cs.length := by
  induction cs with
  | nil => exact ⟨[], rfl, rfl⟩
  | cons c cs ih =>
      obtain ⟨hc, hcs⟩ := List.forall_mem_cons.1 h
      obtain ⟨digits, htake, hlength⟩ := ih hcs
      rw [takeDigits, if_pos hc, htake]
      exact ⟨_, rfl, congrArg (· + 1) hlength⟩

/-- Digits without a leading zero are all digits of one number. -/
theorem takeWhole?_of_forall (h : ∀ c ∈ cs, '0' ≤ c ∧ c ≤ '9') (hzero : cs.head? ≠ some '0')
    (hne : cs ≠ []) : ∃ digits, takeWhole? cs = some (digits, []) ∧ digits.length = cs.length := by
  obtain ⟨digits, htake, hlength⟩ := takeDigits_of_forall h
  refine ⟨digits, ?_, hlength⟩
  unfold takeWhole?
  split
  · exact absurd rfl hzero
  · split
    · next hnone =>
        rw [htake] at hnone
        obtain ⟨rfl, -⟩ := Prod.mk.inj hnone
        exact absurd (List.length_eq_zero_iff.1 hlength.symm) hne
    · rw [htake]

/-- No word begins with a digit. -/
theorem readWord?_of_digit {c : Char} (hc : '0' ≤ c ∧ c ≤ '9') (cs : List Char) :
    readWord? (c :: cs) = none := by
  have hwords : ∀ entry ∈ words, ∃ first rest, entry.1.toList = first :: rest ∧
      ¬ ('0' ≤ first ∧ first ≤ '9') := by
    intro entry hentry
    fin_cases hentry <;> exact ⟨_, _, rfl, by decide⟩
  rw [readWord?, List.findSome?_eq_none_iff]
  rintro ⟨word, v⟩ hword
  obtain ⟨first, rest, hfirst, hdigit⟩ := hwords _ hword
  have hne : first ≠ c := by
    rintro rfl
    exact hdigit hc
  simp only at hfirst
  simp [afterWord?, hfirst, hne]

/-- A text of digits without a leading zero is given up if it has more of them than are read. -/
theorem read_of_long_integer (h : ∀ c ∈ cs, '0' ≤ c ∧ c ≤ '9') (hzero : cs.head? ≠ some '0')
    (hlong : digitLimit < cs.length) : read (String.ofList cs) = .error .tooManyDigits := by
  cases cs with
  | nil => exact absurd hlong (by decide)
  | cons c cs =>
      have hc : '0' ≤ c ∧ c ≤ '9' := h c List.mem_cons_self
      have hne (d : Char) (hd : ¬ ('0' ≤ d ∧ d ≤ '9')) : c ≠ d := by
        rintro rfl
        exact hd hc
      have hspace : skipSpace (c :: cs) = c :: cs := by
        simp [skipSpace, hne ' ' (by decide), hne '\t' (by decide), hne '\n' (by decide),
          hne '\r' (by decide)]
      have hnumber : readNumber false (c :: cs) = .error .tooManyDigits := by
        obtain ⟨digits, hdigits, hlength⟩ := takeWhole?_of_forall h hzero (List.cons_ne_nil c cs)
        have htoo : digitLimit < digits.length := hlength ▸ hlong
        rw [readNumber, hdigits]
        simp only [takeFraction, takeExponent, List.isEmpty_nil, Option.isNone_none, and_self,
          if_true, if_pos htoo]
      have hvalue (fuel : Nat) : readValue (fuel + 1) (c :: cs) = .error .tooManyDigits := by
        unfold readValue
        rw [readWord?_of_digit hc]
        dsimp only
        split
        · next heq => exact absurd (List.cons.inj heq).1 (hne '"' (by decide))
        · next heq => exact absurd (List.cons.inj heq).1 (hne '[' (by decide))
        · next heq => exact absurd (List.cons.inj heq).1 (hne '\x7b' (by decide))
        · next heq => exact absurd (List.cons.inj heq).1 (hne '-' (by decide))
        · exact hnumber
      rw [read, String.toList_ofList, hspace]
      show (readValue _ (c :: cs) >>= _) = _
      rw [hvalue]
      rfl

end Warden.Json
