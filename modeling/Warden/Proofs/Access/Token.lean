import Mathlib.Data.List.Basic
import Warden.Proofs.Sample

/-! # The grammar of tokens

Which texts are tokens, and what each of them stands for, is said by a small grammar
(**`Variable.Spells`**): a name of the user or the role with or without a path behind a point, the
name of the tenant, or the name of the time with or without a shift. The reader takes every text of
the grammar in its sense, and beside these only what is left of a text without the line break at its
end (**`Variable.ofText?_eq_some_iff`**). The name of the tenant alone is compared as a whole.

So a text is taken for a token iff it is one, or is one for the user, the role or the time with a
line break behind it, and every other text stands for itself (**`token_recognised_iff`**). -/

namespace Warden

/-! ## The grammar -/

/-- The word for a unit in a token. -/
def CalendarUnit.spelling : CalendarUnit → String
  | .years => "YEARS"
  | .months => "MONTHS"
  | .weeks => "WEEKS"
  | .days => "DAYS"
  | .hours => "HOURS"
  | .minutes => "MINUTES"
  | .seconds => "SECONDS"

namespace Variable

/-- Word characters and points, at least one. -/
def IsPath (path : String) : Prop :=
  path ≠ "" ∧ ∀ c ∈ path.toList, Text.isWord c = true ∨ c = '.'

/-- Decimal digits with these values, at least one. -/
def IsAmount (amount : String) (digits : List Nat) : Prop :=
  digits ≠ [] ∧ amount.toList.map Text.digitValue? = digits.map some

/-- The sign of a shift, into the past or not. -/
def sign (back : Bool) : String :=
  if back then "-" else "+"

/-- The text is the name, or the name with a path behind a point. -/
inductive Names (name : String) : String → Option String → Prop where
  /-- It is the name. -/
  | alone : Names name name none
  /-- There is a path. -/
  | withPath {path : String} (h : IsPath path) : Names name (name ++ "." ++ path) (some path)

/-- The text is a token in full, and stands for the variable. -/
inductive Spells : String → Variable → Prop where
  /-- The user, or something in the user's profile. -/
  | user {s : String} {path : Option String} (h : Names "$CURRENT_USER" s path) :
      Spells s (.user path)
  /-- The role, or something known about the role. -/
  | role {s : String} {path : Option String} (h : Names "$CURRENT_ROLE" s path) :
      Spells s (.role path)
  /-- The tenant. -/
  | tenant : Spells "$CURRENT_TENANT" .tenant
  /-- The time of the request. -/
  | now : Spells "$NOW" (.now none)
  /-- A time before or after it. -/
  | moved {back : Bool} {unit : CalendarUnit} {amount : String} {digits : List Nat}
      (h : IsAmount amount digits) :
      Spells ("$NOW" ++ sign back ++ unit.spelling ++ "_" ++ amount)
        (.now (some ⟨back, unit, digits⟩))

/-- The text is a token in full. -/
def IsToken (s : String) : Prop :=
  ∃ v, Spells s v

end Variable

/-! ## Pieces of a text -/

/-- A text is cut at the first separator: there is none before the cut. -/
theorem Text.cutFirst_eq_some_iff {sep : Char} {cs before after : List Char} :
    cutFirst sep cs = some (before, after) ↔ sep ∉ before ∧ cs = before ++ sep :: after := by
  induction cs generalizing before with
  | nil => simp [cutFirst]
  | cons c cs ih =>
      rw [cutFirst]
      by_cases hc : c = sep
      · subst hc
        rw [if_pos rfl, Option.some.injEq, Prod.mk.injEq]
        constructor
        · rintro ⟨rfl, rfl⟩
          exact ⟨List.not_mem_nil, rfl⟩
        · rintro ⟨hbefore, heq⟩
          cases before with
          | nil => exact ⟨rfl, (List.cons.inj heq).2⟩
          | cons d before =>
              obtain ⟨rfl, -⟩ := List.cons.inj heq
              exact absurd List.mem_cons_self hbefore
      · rw [if_neg hc, Option.map_eq_some_iff]
        constructor
        · rintro ⟨⟨first, rest⟩, hcut, heq⟩
          obtain ⟨rfl, rfl⟩ := Prod.mk.inj heq
          obtain ⟨hfirst, rfl⟩ := ih.1 hcut
          exact ⟨List.not_mem_cons_of_ne_of_not_mem (Ne.symm hc) hfirst, rfl⟩
        · rintro ⟨hbefore, heq⟩
          cases before with
          | nil => exact absurd (List.cons.inj heq).1 hc
          | cons d before =>
              obtain ⟨rfl, hcs⟩ := List.cons.inj heq
              obtain ⟨-, hnotin⟩ := not_or.1 (mt List.mem_cons.2 hbefore)
              exact ⟨(before, after), ih.2 ⟨hnotin, hcs⟩, rfl⟩

/-- Exactly the seven units have names. -/
theorem CalendarUnit.lookup_names_iff {s : String} {unit : CalendarUnit} :
    names.lookup s = some unit ↔ s = unit.spelling := by
  constructor
  · intro h
    obtain ⟨before, after, hnames, -⟩ := List.lookup_eq_some_iff.1 h
    have hall : ∀ entry ∈ names, entry.1 = entry.2.spelling := by decide
    exact hall (s, unit) (hnames ▸ List.mem_append_right before List.mem_cons_self)
  · rintro rfl
    cases unit <;> rfl

namespace Variable

variable {s t : String} {cs rest : List Char} {v : Variable}

theorem after?_eq_some_iff {beginning : String} :
    after? beginning cs = some rest ↔ cs = beginning.toList ++ rest := by
  rw [after?, Option.ite_none_right_eq_some, List.isPrefixOf_iff_prefix, Option.some.injEq,
    ← String.length_toList]
  constructor
  · rintro ⟨hbegins, rfl⟩
    exact (List.prefix_iff_eq_append.1 hbegins).symm
  · rintro rfl
    exact ⟨List.prefix_append _ _, List.drop_left⟩

/-- Behind the name of the user or the role there is nothing, or a point and a path. -/
theorem readPath?_eq_some_iff {p : Option String} : readPath? cs = some p ↔
    (cs = [] ∧ p = none) ∨ ∃ path, IsPath path ∧ cs = '.' :: path.toList ∧ p = some path := by
  cases cs with
  | nil =>
      constructor
      · rintro ⟨⟩
        exact .inl ⟨rfl, rfl⟩
      · rintro (⟨-, rfl⟩ | ⟨_, -, h, -⟩)
        · rfl
        · cases h
  | cons c cs =>
      simp only [readPath?, Option.ite_none_right_eq_some, Option.some.injEq, List.isEmpty_iff,
        List.all_eq_true, Bool.or_eq_true, beq_iff_eq, List.cons_ne_nil, false_and, false_or]
      constructor
      · rintro ⟨⟨rfl, hne, hall⟩, rfl⟩
        refine ⟨String.ofList cs, ⟨?_, ?_⟩, ?_, rfl⟩
        · simpa using hne
        · simpa using hall
        · simp
      · rintro ⟨path, ⟨hne, hall⟩, heq, rfl⟩
        obtain ⟨rfl, rfl⟩ := List.cons.inj heq
        refine ⟨⟨rfl, ?_, hall⟩, ?_⟩
        · simpa using hne
        · simp

/-- The digits of a shift are read one by one. -/
theorem mapM_digitValue?_iff {digits : List Nat} :
    cs.mapM Text.digitValue? = some digits ↔ cs.map Text.digitValue? = digits.map some := by
  induction cs generalizing digits with
  | nil =>
      constructor
      · rintro ⟨⟩
        rfl
      · intro h
        rw [List.map_eq_nil_iff.1 h.symm]
        rfl
  | cons c cs ih =>
      simp only [List.mapM_cons, Option.bind_eq_bind, Option.bind_eq_some_iff, Option.pure_def,
        Option.some.injEq, ih, List.map_cons]
      constructor
      · rintro ⟨d, hd, ds, hds, rfl⟩
        rw [hd, hds, List.map_cons]
      · intro h
        obtain ⟨d, ds, rfl, hd, hds⟩ := List.map_eq_cons_iff.1 h.symm
        exact ⟨d, hd.symm, ds, hds.symm, rfl⟩

/-- Behind the name of the time there is nothing, or a sign, a unit and digits. -/
theorem readShift?_eq_some_iff {p : Option TimeShift} : readShift? cs = some p ↔
    (cs = [] ∧ p = none) ∨ ∃ back unit amount digits, IsAmount amount digits ∧
      cs = (sign back ++ unit.spelling ++ "_" ++ amount).toList ∧
      p = some ⟨back, unit, digits⟩ := by
  cases cs with
  | nil =>
      constructor
      · rintro ⟨⟩
        exact .inl ⟨rfl, rfl⟩
      · rintro (⟨-, rfl⟩ | ⟨back, _, _, _, -, h, -⟩)
        · rfl
        · cases back <;> simp [sign] at h
  | cons c cs =>
      simp only [readShift?, Option.ite_none_right_eq_some, Option.bind_eq_bind,
        Option.bind_eq_some_iff, List.cons_ne_nil, false_and, false_or, Prod.exists,
        Text.cutFirst_eq_some_iff, CalendarUnit.lookup_names_iff, mapM_digitValue?_iff,
        Option.ite_none_left_eq_some, Option.some.injEq, List.isEmpty_iff]
      constructor
      · rintro ⟨hsign, word, amount, ⟨-, rfl⟩, unit, hunit, digits, hdigits, hne, rfl⟩
        have hword : word = unit.spelling.toList := by
          rw [← hunit, String.toList_ofList]
        refine ⟨c == '-', unit, String.ofList amount, digits, ⟨hne, ?_⟩, ?_, rfl⟩
        · rwa [String.toList_ofList]
        · rcases hsign with rfl | rfl <;> simp [sign, hword]
      · rintro ⟨back, unit, amount, digits, ⟨hne, hdigits⟩, heq, rfl⟩
        have hunit : '_' ∉ unit.spelling.toList := by
          cases unit <;> decide
        have hchars : c = (if back then '-' else '+') ∧
            cs = unit.spelling.toList ++ '_' :: amount.toList := by
          cases back <;> simpa [sign] using heq
        obtain ⟨rfl, rfl⟩ := hchars
        refine ⟨?_, _, _, ⟨hunit, rfl⟩, unit, String.ofList_toList, digits, hdigits, hne, ?_⟩
        · cases back
          · exact .inl rfl
          · exact .inr rfl
        · cases back <;> rfl

/-! ## What is read -/

theorem spells_user_iff {path : Option String} :
    Spells s (.user path) ↔ Names "$CURRENT_USER" s path :=
  ⟨fun h => by cases h; assumption, .user⟩

theorem spells_role_iff {path : Option String} :
    Spells s (.role path) ↔ Names "$CURRENT_ROLE" s path :=
  ⟨fun h => by cases h; assumption, .role⟩

/-- A text names something iff a path can be read behind the name. -/
theorem names_iff {name : String} {path : Option String} :
    Names name s path ↔ ∃ rest, s.toList = name.toList ++ rest ∧ readPath? rest = some path := by
  simp only [readPath?_eq_some_iff]
  constructor
  · rintro (_ | ⟨hpath⟩)
    · exact ⟨[], (List.append_nil _).symm, .inl ⟨rfl, rfl⟩⟩
    · exact ⟨_, by simp, .inr ⟨_, hpath, rfl, rfl⟩⟩
  · rintro ⟨rest, hs, ⟨rfl, rfl⟩ | ⟨path, hpath, rfl, rfl⟩⟩
    · rw [List.append_nil, String.toList_inj] at hs
      exact hs ▸ .alone
    · have hwhole : s = name ++ "." ++ path := by
        rw [← String.toList_inj, hs]
        simp
      exact hwhole ▸ .withPath hpath

/-- A text is the time, moved or not, iff a shift can be read behind its name. -/
theorem spells_now_iff {shift : Option TimeShift} : Spells s (.now shift) ↔
    ∃ rest, s.toList = "$NOW".toList ++ rest ∧ readShift? rest = some shift := by
  simp only [readShift?_eq_some_iff]
  constructor
  · rintro (_ | _ | _ | _ | ⟨hamount⟩)
    · exact ⟨[], (List.append_nil _).symm, .inl ⟨rfl, rfl⟩⟩
    · exact ⟨_, by simp [List.append_assoc], .inr ⟨_, _, _, _, hamount, rfl, rfl⟩⟩
  · rintro ⟨rest, hs, ⟨rfl, rfl⟩ | ⟨back, unit, amount, digits, hamount, rfl, rfl⟩⟩
    · rw [List.append_nil, String.toList_inj] at hs
      exact hs ▸ .now
    · have hwhole : s = "$NOW" ++ sign back ++ unit.spelling ++ "_" ++ amount := by
        rw [← String.toList_inj, hs]
        simp [List.append_assoc]
      exact hwhole ▸ .moved hamount

/-- What is left of a text without its line break is read as the grammar has it, unless it is the
tenant. -/
theorem ofText?_of_ne (h : s ≠ tenantToken) : ofText? s = some v ↔
    v ≠ .tenant ∧ Spells (String.ofList (withoutLineBreak s.toList)) v := by
  rw [ofText?, if_neg h]
  generalize withoutLineBreak s.toList = cs
  simp only [Option.or_eq_some_iff, Option.bind_eq_some_iff, Option.map_eq_some_iff,
    after?_eq_some_iff]
  constructor
  · rintro (⟨rest, rfl, path, hpath, rfl⟩ | ⟨-, ⟨rest, rfl, path, hpath, rfl⟩ |
      ⟨-, rest, rfl, shift, hshift, rfl⟩⟩)
    · exact ⟨nofun, .user (names_iff.2 ⟨rest, String.toList_ofList, hpath⟩)⟩
    · exact ⟨nofun, .role (names_iff.2 ⟨rest, String.toList_ofList, hpath⟩)⟩
    · exact ⟨nofun, spells_now_iff.2 ⟨rest, String.toList_ofList, hshift⟩⟩
  · rintro ⟨htenant, hspells⟩
    -- none of the three names begins another one, so no earlier reading gets in the way
    cases v with
    | user path =>
        obtain ⟨rest, hcs, hpath⟩ := names_iff.1 (spells_user_iff.1 hspells)
        rw [String.toList_ofList] at hcs
        exact .inl ⟨rest, hcs, path, hpath, rfl⟩
    | role path =>
        obtain ⟨rest, hcs, hpath⟩ := names_iff.1 (spells_role_iff.1 hspells)
        rw [String.toList_ofList] at hcs
        subst hcs
        exact .inr ⟨rfl, .inl ⟨rest, rfl, path, hpath, rfl⟩⟩
    | tenant => exact absurd rfl htenant
    | now shift =>
        obtain ⟨rest, hcs, hshift⟩ := spells_now_iff.1 hspells
        rw [String.toList_ofList] at hcs
        subst hcs
        exact .inr ⟨rfl, .inr ⟨rfl, rest, rfl, shift, hshift, rfl⟩⟩

/-- There is no line break in a token. -/
theorem Spells.lineBreak_notMem (h : Spells s v) : '\n' ∉ s.toList := by
  have hnames {name : String} {path : Option String} (hname : '\n' ∉ name.toList)
      (h : Names name s path) : '\n' ∉ s.toList := by
    cases h with
    | alone => exact hname
    | withPath hpath =>
        simp only [String.toList_append, List.mem_append, not_or]
        exact ⟨⟨hname, by decide⟩, fun hmem => absurd (hpath.2 _ hmem) (by decide)⟩
  cases h with
  | user h => exact hnames (by decide) h
  | role h => exact hnames (by decide) h
  | tenant => decide
  | now => decide
  | @moved back unit amount digits h =>
      have hsign : '\n' ∉ (sign back).toList := by cases back <;> decide
      have hunit : '\n' ∉ unit.spelling.toList := by cases unit <;> decide
      have hamount : '\n' ∉ amount.toList := by
        intro hmem
        have hdigit : Text.digitValue? '\n' ∈ digits.map some := h.2 ▸ List.mem_map_of_mem hmem
        rw [show Text.digitValue? '\n' = none by decide] at hdigit
        simp at hdigit
      simp only [String.toList_append, List.mem_append, not_or]
      exact ⟨⟨⟨⟨by decide, hsign⟩, hunit⟩, by decide⟩, hamount⟩

/-- The tenant is spelled in one way, and nothing else is spelled like it. -/
theorem Spells.eq_tenant_iff (h : Spells s v) : v = .tenant ↔ s = tenantToken := by
  constructor
  · rintro rfl
    cases h
    rfl
  · rintro rfl
    cases v with
    | user path =>
        obtain ⟨rest, hrest, -⟩ := names_iff.1 (spells_user_iff.1 h)
        cases hrest
    | role path =>
        obtain ⟨rest, hrest, -⟩ := names_iff.1 (spells_role_iff.1 h)
        cases hrest
    | tenant => rfl
    | now shift =>
        obtain ⟨rest, hrest, -⟩ := spells_now_iff.1 h
        cases hrest

/-- The text is a token, or one for the user, the role or the time with a line break behind it. -/
def TakenFor (s : String) (v : Variable) : Prop :=
  Spells s v ∨ v ≠ .tenant ∧ ∃ t, s = t ++ "\n" ∧ Spells t v

/-- A text without a line break at its end is left whole. -/
theorem withoutLineBreak_of_notMem (h : '\n' ∉ cs) : withoutLineBreak cs = cs := by
  rw [withoutLineBreak, if_neg]
  intro hlast
  exact h (List.mem_of_getLast? hlast)

/-- **What is read as a token.** -/
theorem ofText?_eq_some_iff : ofText? s = some v ↔ TakenFor s v := by
  by_cases hs : s = tenantToken
  · subst hs
    rw [ofText?, if_pos rfl, Option.some.injEq, eq_comm]
    constructor
    · rintro rfl
      exact .inl .tenant
    · rintro (h | ⟨-, t, ht, -⟩)
      · exact h.eq_tenant_iff.2 rfl
      · have hmem : '\n' ∈ tenantToken.toList := by
          rw [ht]
          simp
        exact absurd hmem (by decide)
  · rw [ofText?_of_ne hs]
    constructor
    · rintro ⟨hv, h⟩
      by_cases hlast : s.toList.getLast? = some '\n'
      · rw [withoutLineBreak, if_pos hlast] at h
        refine .inr ⟨hv, _, ?_, h⟩
        rw [← String.toList_inj]
        simp [List.dropLast_append_getLast? '\n' hlast]
      · rw [withoutLineBreak, if_neg hlast, String.ofList_toList] at h
        exact .inl h
    · rintro (h | ⟨hv, t, rfl, h⟩)
      · refine ⟨mt h.eq_tenant_iff.1 hs, ?_⟩
        rwa [withoutLineBreak_of_notMem h.lineBreak_notMem, String.ofList_toList]
      · refine ⟨hv, ?_⟩
        have hcs : withoutLineBreak (t ++ "\n").toList = t.toList := by
          simp [withoutLineBreak]
        rwa [hcs, String.ofList_toList]

end Variable

open Variable

/-- **Exactly the tokens are recognised**, and beside them those for the user, the role and the time
with one line break behind them. What is recognised is replaced by the value of its variable, and
every other text stands for itself. -/
theorem token_recognised_iff (s : String) :
    ((Value.text s).isVariable = true ↔
      IsToken s ∨ ∃ t, s = t ++ "\n" ∧ IsToken t ∧ t ≠ tenantToken) ∧
    (Value.text s).hasVariable = (Value.text s).isVariable ∧
    ((∃ v, TakenFor s v ∧ ∀ r : Resolver, r.resolve (.text s) = r.value s v) ∨
      (Value.text s).isVariable = false ∧ ∀ r : Resolver, r.resolve (.text s) = .ok (.text s)) := by
  refine ⟨?_, ?_, ?_⟩
  · have hsome : (Value.text s).isVariable = true ↔ ∃ v, TakenFor s v := by
      simp only [Value.isVariable, Option.isSome_iff_exists, ofText?_eq_some_iff]
    rw [hsome]
    constructor
    · rintro ⟨v, h | ⟨hv, t, rfl, h⟩⟩
      · exact .inl ⟨v, h⟩
      · exact .inr ⟨t, rfl, ⟨v, h⟩, mt h.eq_tenant_iff.2 hv⟩
    · rintro (⟨v, h⟩ | ⟨t, rfl, ⟨v, h⟩, ht⟩)
      · exact ⟨v, .inl h⟩
      · exact ⟨v, .inr ⟨mt h.eq_tenant_iff.1 ht, t, rfl, h⟩⟩
  · rw [Value.hasVariable, Value.isVariable]
  · cases hread : ofText? s with
    | some v =>
        refine .inl ⟨v, ofText?_eq_some_iff.1 hread, fun r => ?_⟩
        rw [Resolver.resolve, Resolver.resolveText, hread]
    | none =>
        refine .inr ⟨by rw [Value.isVariable, hread]; rfl, fun r => ?_⟩
        rw [Resolver.resolve, Resolver.resolveText, hread]

/-- The time with a line break behind it is no token, and is replaced all the same. -/
theorem time_with_line_break : ¬ IsToken "$NOW\n" ∧ (Value.text "$NOW\n").isVariable = true ∧
    Sample.resolver.resolve (.text "$NOW\n") = .ok (.datetime Sample.noon) := by
  refine ⟨?_, by decide, by rfl⟩
  rintro ⟨v, h⟩
  exact h.lineBreak_notMem (by decide)

end Warden
