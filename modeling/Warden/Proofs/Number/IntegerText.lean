import Mathlib.Data.List.Basic
import Mathlib.Tactic.IntervalCases
import Warden.Number.Decimal
import Warden.Number.IntegerText

/-! # Integers in plain digits

The plainest text of an integer is a run of ASCII digits after an optional sign
(**`IntegerText.plain?`**), and that is what an integer is written as (**`plain?_toString`**). Such
a text is no other number when it is read as a decimal: it has no fraction, no exponent, and no
blanks that are dropped (**`Decimal.ofText?_of_plain`**). It may have too many digits to be read. -/

namespace Warden

/-! ## Digits -/

namespace Text

/-- A fact about the ten digits is one about every ASCII digit. -/
theorem forall_isDigit {P : Char → Prop} (h : ∀ n < 10, P (Char.ofNat (48 + n))) {c : Char}
    (hc : c.isDigit = true) : P c := by
  obtain ⟨hlow, hhigh⟩ : 48 ≤ c.toNat ∧ c.toNat ≤ 57 := by
    simpa [Char.isDigit, UInt32.le_iff_toNat_le] using hc
  have hdigit := h (c.toNat - 48) (by omega)
  rwa [Nat.add_sub_cancel' hlow, Char.ofNat_toNat] at hdigit

theorem digitValue?_of_isDigit {c : Char} (hc : c.isDigit = true) :
    digitValue? c = some (c.toNat - '0'.toNat) :=
  forall_isDigit (P := fun c => digitValue? c = some (c.toNat - '0'.toNat)) (by decide) hc

theorem isBlank_of_isDigit {c : Char} (hc : c.isDigit = true) : isBlank c = false :=
  forall_isDigit (P := fun c => isBlank c = false) (by decide) hc

/-- Nothing is trimmed from a text without blanks. -/
theorem trimChars_of_forall {cs : List Char} (h : ∀ c ∈ cs, isBlank c = false) :
    trimChars cs = cs := by
  have hdrop (ds : List Char) (hds : ∀ c ∈ ds, isBlank c = false) : ds.dropWhile isBlank = ds := by
    cases ds with
    | nil => rfl
    | cons d ds => exact List.dropWhile_cons_of_neg (by simp [hds d List.mem_cons_self])
  have hreverse : ∀ c ∈ cs.reverse, isBlank c = false :=
    fun c hc => h c (List.mem_reverse.1 hc)
  rw [trimChars, hdrop cs h, hdrop cs.reverse hreverse, List.reverse_reverse]

/-- The number that ASCII digits write. -/
theorem numberOfDigits_map (cs : List Char) :
    numberOfDigits (cs.map fun c => c.toNat - '0'.toNat) = Nat.ofDigitChars 10 cs 0 := by
  rw [numberOfDigits, List.foldl_map]
  rfl

end Text

/-! ## Plain texts -/

namespace IntegerText

/-- The integer that is meant by a sign and digits. -/
def signed (negative : Bool) (n : Nat) : Int :=
  if negative then -n else n

/-- The integer of an optional sign and ASCII digits. -/
def plain? (s : String) : Option Int :=
  let (negative, digits) := splitSign s.toList
  if !digits.isEmpty && digits.all Char.isDigit then
    some (signed negative (Nat.ofDigitChars 10 digits 0))
  else none

variable {s : String} {n : Int}

theorem plain?_eq_some_iff : plain? s = some n ↔ ∃ negative digits,
    splitSign s.toList = (negative, digits) ∧ digits ≠ [] ∧ (∀ c ∈ digits, c.isDigit = true) ∧
      signed negative (Nat.ofDigitChars 10 digits 0) = n := by
  rw [plain?]
  obtain ⟨negative, digits⟩ := splitSign s.toList
  simp only [Bool.and_eq_true, Bool.not_eq_true', List.isEmpty_eq_false_iff, List.all_eq_true,
    Option.ite_none_right_eq_some, Option.some.injEq]
  constructor
  · rintro ⟨⟨hne, hdigits⟩, hvalue⟩
    exact ⟨negative, digits, rfl, hne, hdigits, hvalue⟩
  · rintro ⟨_, _, hsplit, hne, hdigits, hvalue⟩
    cases hsplit
    exact ⟨⟨hne, hdigits⟩, hvalue⟩

/-- Only a sign is taken from the front. -/
theorem splitSign_cases (cs : List Char) :
    splitSign cs = (false, cs) ∨
      ∃ negative rest, splitSign cs = (negative, rest) ∧ (cs = '-' :: rest ∨ cs = '+' :: rest) := by
  unfold splitSign
  split
  · exact .inr ⟨true, _, rfl, .inl rfl⟩
  · exact .inr ⟨false, _, rfl, .inr rfl⟩
  · exact .inl rfl

theorem splitSign_of_isDigit {cs : List Char} (h : ∀ c ∈ cs, c.isDigit = true) :
    splitSign cs = (false, cs) := by
  rcases splitSign_cases cs with hnone | ⟨_, rest, -, rfl | rfl⟩
  · exact hnone
  · cases h '-' List.mem_cons_self
  · cases h '+' List.mem_cons_self

/-- An integer is written in plain digits. -/
theorem plain?_toString (n : Int) : plain? (toString n) = some n := by
  have hdigits (k : Nat) : ∀ c ∈ Nat.toDigits 10 k, c.isDigit = true :=
    fun c hc => Nat.isDigit_of_mem_toDigits (by decide) (by decide) hc
  have hvalue (k : Nat) : Nat.ofDigitChars 10 (Nat.toDigits 10 k) 0 = k :=
    Nat.ofDigitChars_toDigits (by decide) (by decide)
  rw [plain?_eq_some_iff]
  cases n with
  | ofNat k =>
      refine ⟨false, Nat.toDigits 10 k, ?_, Nat.toDigits_ne_nil, hdigits k, ?_⟩
      · have hchars : (toString (Int.ofNat k)).toList = Nat.toDigits 10 k :=
          Nat.toList_repr
        rw [hchars, splitSign_of_isDigit (hdigits k)]
      · rw [hvalue]
        rfl
  | negSucc k =>
      refine ⟨true, Nat.toDigits 10 (k + 1), ?_, Nat.toDigits_ne_nil, hdigits (k + 1), ?_⟩
      · have hchars : (toString (Int.negSucc k)).toList = '-' :: Nat.toDigits 10 (k + 1) := by
          show ("-" ++ Nat.repr (k + 1)).toList = _
          rw [String.toList_append, Nat.toList_repr]
          rfl
        rw [hchars]
        rfl
      · rw [hvalue]
        rfl

/-- Every character of a plain text is a sign or a digit. -/
theorem forall_of_plain {P : Char → Prop} (hplus : P '+') (hminus : P '-')
    (hdigit : ∀ c, c.isDigit = true → P c) (h : plain? s = some n) : ∀ c ∈ s.toList, P c := by
  obtain ⟨negative, digits, hsplit, -, hdigits, -⟩ := plain?_eq_some_iff.1 h
  intro c hc
  rcases splitSign_cases s.toList with hnone | ⟨_, rest, hrest, hsign⟩
  · rw [hsplit] at hnone
    cases hnone
    exact hdigit c (hdigits c hc)
  · rw [hsplit] at hrest
    cases hrest
    rcases hsign with hsign | hsign
    · rw [hsign] at hc
      rcases List.mem_cons.1 hc with rfl | hc
      · exact hminus
      · exact hdigit c (hdigits c hc)
    · rw [hsign] at hc
      rcases List.mem_cons.1 hc with rfl | hc
      · exact hplus
      · exact hdigit c (hdigits c hc)

end IntegerText

/-! ## Plain texts as decimals -/

namespace Decimal

open IntegerText

theorem takeDigits_of_isDigit {cs : List Char} (h : ∀ c ∈ cs, c.isDigit = true) :
    takeDigits cs = (cs.map fun c => c.toNat - '0'.toNat, []) := by
  induction cs with
  | nil => rfl
  | cons c cs ih =>
      rw [takeDigits, Text.digitValue?_of_isDigit (h c List.mem_cons_self),
        ih fun d hd => h d (List.mem_cons_of_mem _ hd)]
      rfl

/-- Digits are no name of a value beside the numbers. -/
theorem readSpecial?_of_isDigit (negative : Bool) {c : Char} (hc : c.isDigit = true)
    (cs : List Char) : readSpecial? negative (c :: cs) = none := by
  revert cs
  refine Text.forall_isDigit (P := fun c => ∀ cs, readSpecial? negative (c :: cs) = none) ?_ hc
  intro n hn cs
  interval_cases n <;> simp [readSpecial?, small]

/-- Digits are read as their number, if it is not too large. -/
theorem readFinite?_of_isDigit (negative : Bool) {cs : List Char} (hne : cs ≠ [])
    (h : ∀ c ∈ cs, c.isDigit = true) : readFinite? negative cs = none ∨
      readFinite? negative cs = some (.finite ⟨negative, Nat.ofDigitChars 10 cs 0, 0⟩) := by
  have hwhole : (cs.map fun c => c.toNat - '0'.toNat).isEmpty = false := by
    rw [List.isEmpty_map, List.isEmpty_eq_false_iff]
    exact hne
  simp only [readFinite?, takeDigits_of_isDigit h, hwhole, Bool.false_and, Bool.false_eq_true,
    if_false, readExponent?, List.append_nil, Text.numberOfDigits_map, Option.bind_eq_bind,
    Option.bind_some, List.length_nil]
  split
  · exact .inl rfl
  · split
    · exact .inl rfl
    · exact .inr rfl

/-- A text without blanks and underscores is read behind its sign. -/
theorem ofText?_of_splitSign {s : String} {negative : Bool} {cs : List Char}
    (htrim : Text.trimChars s.toList = s.toList) (hfilter : s.toList.filter (· != '_') = s.toList)
    (hsplit : splitSign s.toList = (negative, cs)) :
    ofText? s = (readFinite? negative cs).or (readSpecial? negative cs) := by
  rw [ofText?, htrim, hfilter]
  -- a sign is taken from the front in the same way for decimals and for integers
  cases hchars : s.toList with
  | nil =>
      rw [hchars] at hsplit
      cases hsplit
      rfl
  | cons c rest =>
      rw [hchars] at hsplit
      by_cases hminus : c = '-'
      · subst hminus
        cases hsplit
        rfl
      · by_cases hplus : c = '+'
        · subst hplus
          cases hsplit
          rfl
        · have hnone : splitSign (c :: rest) = (false, c :: rest) := by
            simp [splitSign, hminus, hplus]
          cases hnone.symm.trans hsplit
          simp [hminus, hplus]

/-- **A plain text is read as its integer**, if it can be read as a decimal at all. -/
theorem ofText?_of_plain {s : String} {n : Int} (h : plain? s = some n) : ofText? s = none ∨
    ∃ negative m, ofText? s = some (.finite ⟨negative, m, 0⟩) ∧ signed negative m = n := by
  have htrim : Text.trimChars s.toList = s.toList :=
    Text.trimChars_of_forall <| forall_of_plain (by decide) (by decide)
      (fun c hc => Text.isBlank_of_isDigit hc) h
  have hfilter : s.toList.filter (· != '_') = s.toList :=
    List.filter_eq_self.2 <| forall_of_plain (by decide) (by decide)
      (fun c hc => Text.forall_isDigit (P := fun c => (c != '_') = true) (by decide) hc) h
  obtain ⟨negative, digits, hsplit, hne, hdigits, hvalue⟩ := plain?_eq_some_iff.1 h
  have hread : ofText? s = readFinite? negative digits := by
    have hspecial : readSpecial? negative digits = none := by
      cases digits with
      | nil => exact absurd rfl hne
      | cons c cs => exact readSpecial?_of_isDigit negative (hdigits c List.mem_cons_self) cs
    rw [ofText?_of_splitSign htrim hfilter hsplit, hspecial, Option.or_none]
  rw [hread]
  rcases readFinite?_of_isDigit negative hne hdigits with hnone | hsome
  · exact .inl hnone
  · exact .inr ⟨negative, _, hsome, hvalue⟩

end Decimal

end Warden
