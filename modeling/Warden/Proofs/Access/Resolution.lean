import Warden.Proofs.Access.Token
import Warden.Proofs.Outcome

/-! # How the replacement of variables fails

A value is resolved text by text, from left to right (**`Resolver.resolve_eq_forM`**), and it fails
as the first text does that fails. A text is turned down (**`Resolver.TurnsDown`**) where it asks
for a user, a role or a tenant that is not there, or for something that the profile does not have.
A text for a time that the calendar cannot hold (**`Resolver.Strays`**) is not turned down: there
the computation breaks off (**`resolve_ends`**). -/

namespace Warden

/-! ## The calendar's range -/

namespace DateTime

/-- The first moment of the calendar. -/
def first : DateTime :=
  ⟨⟨1, 1, 1⟩, ⟨0, 0, 0, 0⟩, none⟩

/-- The last moment of the calendar. -/
def last : DateTime :=
  ⟨⟨9999, 12, 31⟩, ⟨23, 59, 59, 999999⟩, none⟩

/-- The number of a time's month, when all months are counted. -/
def month (t : DateTime) : Nat :=
  12 * t.date.year + (t.date.month - 1)

/-- The month that many months later is one of the calendar. -/
def HasMonth (t : DateTime) (months : Int) : Prop :=
  first.month ≤ t.month + months ∧ t.month + months ≤ last.month

/-- The moment that many seconds later is one of the calendar. -/
def HasMoment (t : DateTime) (seconds : Int) : Prop :=
  first.clock ≤ t.clock + seconds * 1000000 ∧ t.clock + seconds * 1000000 ≤ last.clock

variable {t : DateTime}

/-- A time is moved by months iff the calendar has the month. -/
theorem addMonths?_ok_iff {months : Int} :
    (∃ s, t.addMonths? months = .ok s) ↔ t.HasMonth months := by
  have hyear : (1 ≤ ((t.date.year * 12 + (t.date.month - 1) : Nat) + months).fdiv 12 ∧
      ((t.date.year * 12 + (t.date.month - 1) : Nat) + months).fdiv 12 ≤ 9999) ↔
        t.HasMonth months := by
    have hfirst : first.month = 12 := rfl
    have hlast : last.month = 119999 := rfl
    rw [HasMonth, hfirst, hlast, month, Int.fdiv_eq_ediv_of_nonneg _ (by decide)]
    omega
  rw [← hyear, addMonths?]
  split
  · next h => exact iff_of_true ⟨_, rfl⟩ h
  · next h =>
      refine iff_of_false ?_ h
      rintro ⟨s, hs⟩
      split at hs <;> cases hs

/-- Exactly the days of the years 1 to 9999 have dates. -/
theorem ofDayNumber?_isSome_iff {n : Int} :
    (Date.ofDayNumber? n).isSome = true ↔ 1 ≤ n ∧ n ≤ Date.lastDay := by
  rw [Date.ofDayNumber?]
  split
  · next h =>
      refine iff_of_false (by simp) ?_
      omega
  · next h =>
      refine iff_of_true ?_ (by omega)
      dsimp only
      split <;> rfl

/-- A time is moved by seconds iff the calendar has the moment. -/
theorem addSeconds?_ok_iff {seconds : Int} :
    (∃ s, t.addSeconds? seconds = .ok s) ↔ t.HasMoment seconds := by
  have hday : (Date.ofDayNumber? ((t.clock + seconds * 1000000).fdiv dayLength)).isSome = true ↔
      t.HasMoment seconds := by
    have hfirst : first.clock = 86400000000 := by decide
    have hlast : last.clock = 86400000000 * 3652060 - 1 := by decide
    rw [ofDayNumber?_isSome_iff, HasMoment, hfirst, hlast, Date.lastDay, dayLength,
      Int.fdiv_eq_ediv_of_nonneg _ (by decide)]
    omega
  rw [← hday, Option.isSome_iff_exists, addSeconds?]
  constructor
  · rintro ⟨s, hs⟩
    split at hs
    · next date hdate => exact ⟨date, hdate⟩
    · cases hs
  · rintro ⟨date, hdate⟩
    rw [hdate]
    exact ⟨_, rfl⟩

end DateTime

/-- The time that many units later is one of the calendar. -/
def CalendarUnit.Has (unit : CalendarUnit) (amount : Int) (t : DateTime) : Prop :=
  match unit with
  | .years => t.HasMonth (12 * amount)
  | .months => t.HasMonth amount
  | .weeks => t.HasMoment (7 * 24 * 60 * 60 * amount)
  | .days => t.HasMoment (24 * 60 * 60 * amount)
  | .hours => t.HasMoment (60 * 60 * amount)
  | .minutes => t.HasMoment (60 * amount)
  | .seconds => t.HasMoment amount

/-- A time is moved by units iff the calendar has the time. -/
theorem CalendarUnit.shift_ok_iff {unit : CalendarUnit} {amount : Int} {t : DateTime} :
    (∃ s, unit.shift amount t = .ok s) ↔ unit.Has amount t := by
  cases unit with
  | years | months => exact DateTime.addMonths?_ok_iff
  | weeks | days | hours | minutes | seconds => exact DateTime.addSeconds?_ok_iff

namespace TimeShift

/-- The number of units, negative into the past. -/
def amount (shift : TimeShift) : Int :=
  if shift.back then -(Text.numberOfDigits shift.digits : Int) else Text.numberOfDigits shift.digits

/-- The number has too many digits, or the calendar does not have the time. -/
def IsTooFar (shift : TimeShift) (t : DateTime) : Prop :=
  Resolver.digitLimit < shift.digits.length ∨ ¬ shift.unit.Has shift.amount t

end TimeShift

namespace Resolver

variable {r : Resolver} {s token path : String} {segments : List String} {v : Value}
  {reason : Refusal}

/-- A time moved by a number that can be read is moved in the calendar, and what the calendar has no
time for breaks off. -/
theorem moved_eq {shift : TimeShift} (h : ¬ digitLimit < shift.digits.length) :
    r.moved shift = match shift.unit.shift shift.amount r.now with
      | .ok t => .ok (.datetime t)
      | .error .year => breakOff .invalidValue
      | .error .distance => breakOff .overflow := by
  rw [moved, if_neg h]
  rfl

/-- The time of the request is moved, or the computation breaks off because the distance is too
far. -/
theorem moved_cases (r : Resolver) (shift : TimeShift) :
    (∃ v, r.moved shift = .ok v ∧ ¬ shift.IsTooFar r.now) ∨
      ∃ defect, r.moved shift = breakOff defect ∧ shift.IsTooFar r.now := by
  rw [TimeShift.IsTooFar, ← CalendarUnit.shift_ok_iff]
  by_cases hdigits : digitLimit < shift.digits.length
  · rw [moved, if_pos hdigits]
    exact .inr ⟨_, rfl, .inl hdigits⟩
  · rw [moved_eq hdigits]
    cases shift.unit.shift shift.amount r.now with
    | ok t =>
        refine .inl ⟨_, rfl, ?_⟩
        rintro (h | h)
        · exact hdigits h
        · exact h ⟨t, rfl⟩
    | error e =>
        refine .inr ?_
        cases e with
        | year => exact ⟨_, rfl, .inr (by simp)⟩
        | distance => exact ⟨_, rfl, .inr (by simp)⟩

/-! ## What one text can come to -/

/-- The names lead from record to record of the value, and the last one to something. -/
inductive Leads : Value → List String → Prop where
  /-- The value is reached. -/
  | here {v : Value} : Leads v []
  /-- The first name stands for something in the record. -/
  | into {entries : Record} {name : String} {names : List String} {v : Value}
      (h : entries.find? name = some v) (hv : Leads v names) :
      Leads (.record entries) (name :: names)

/-- The text asks for something that is not there, and is turned down for this reason. -/
inductive TurnsDown (r : Resolver) (s : String) : Refusal → Prop where
  /-- There is no user. -/
  | noUser {path : Option String} (h : Variable.TakenFor s (.user path))
      (hcaller : r.caller.user = none) : TurnsDown r s .accessDenied
  /-- There is no role. -/
  | noRole {path : Option String} (h : Variable.TakenFor s (.role path))
      (hcaller : r.caller.role = none) : TurnsDown r s .accessDenied
  /-- There is no tenant. -/
  | noTenant (h : Variable.TakenFor s .tenant)
      (hcaller : r.caller.tenant = none) : TurnsDown r s .accessDenied
  /-- The user's profile does not have the field. -/
  | noUserField {path : String} {u : User} (h : Variable.TakenFor s (.user (some path)))
      (hcaller : r.caller.user = some u)
      (hpath : ¬ Leads (.record u.toRecord) (Text.split '.' path)) :
      TurnsDown r s (.unknownVariableField s path)
  /-- A role does not have the field. -/
  | noRoleField {path : String} {role : Role} (h : Variable.TakenFor s (.role (some path)))
      (hcaller : r.caller.role = some role)
      (hpath : ¬ Leads (.record role.toRecord) (Text.split '.' path)) :
      TurnsDown r s (.unknownVariableField s path)

/-- The text asks for a time that is too far from that of the request. -/
def Strays (r : Resolver) (s : String) : Prop :=
  ∃ shift, Variable.TakenFor s (.now (some shift)) ∧ shift.IsTooFar r.now

/-- The text stands for a value. -/
def Succeeds (r : Resolver) (s : String) : Prop :=
  (∀ reason, ¬ r.TurnsDown s reason) ∧ ¬ r.Strays s

/-- A text is turned down because someone is missing or because a field is. -/
theorem TurnsDown.sort_eq (h : r.TurnsDown s reason) :
    reason.sort = .accessDenied ∨ reason.sort = .unresolvableVariable := by
  cases h with
  | noUser | noRole | noTenant => exact .inl rfl
  | noUserField | noRoleField => exact .inr rfl

/-- A path is followed to its end or turned down. -/
theorem lookup_cases (token path : String) (v : Value) (names : List String) :
    (∃ w, lookup token path v names = .ok w ∧ Leads v names) ∨
      lookup token path v names = refuse (.unknownVariableField token path) ∧
        ¬ Leads v names := by
  induction names generalizing v with
  | nil => exact .inl ⟨v, rfl, .here⟩
  | cons name names ih =>
      rw [lookup]
      cases hv : v.record? with
      | none =>
          refine .inr ⟨rfl, ?_⟩
          rintro (_ | ⟨_, _⟩)
          cases hv
      | some entries =>
          obtain rfl : v = .record entries := by
            cases v <;> cases hv
            rfl
          cases hentry : entries.find? name with
          | none =>
              refine .inr ⟨by simp only [hentry], ?_⟩
              rintro (_ | ⟨h, _⟩)
              cases hentry.symm.trans h
          | some next =>
              simp only [hentry]
              rcases ih next with ⟨w, hw, hnext⟩ | ⟨hw, hnext⟩
              · exact .inl ⟨w, hw, .into hentry hnext⟩
              · refine .inr ⟨hw, ?_⟩
                rintro (_ | ⟨h, hrest⟩)
                cases hentry.symm.trans h
                exact hnext hrest

/-- A path is turned down iff it leads nowhere. -/
theorem lookup_eq_refuse_iff {names : List String} :
    lookup token path v names = refuse reason ↔
      reason = .unknownVariableField token path ∧ ¬ Leads v names := by
  rcases lookup_cases token path v names with ⟨w, hw, hleads⟩ | ⟨hw, hleads⟩
  · rw [hw]
    exact iff_of_false (fun h => nomatch h) (fun h => h.2 hleads)
  · rw [hw]
    constructor
    · intro h
      cases h
      exact ⟨rfl, hleads⟩
    · rintro ⟨rfl, -⟩
      rfl

/-- Following a path never breaks off. -/
theorem lookup_ne_breakOff {names : List String} {defect : Defect} :
    lookup token path v names ≠ breakOff defect := by
  intro h
  rcases lookup_cases token path v names with ⟨w, hw, -⟩ | ⟨hw, -⟩
  · cases hw.symm.trans h
  · cases hw.symm.trans h

/-- A token stands for the value of its variable. -/
theorem resolveText_of_takenFor {meaning : Variable} (h : Variable.TakenFor s meaning) :
    r.resolveText s = r.value s meaning := by
  rw [resolveText, Variable.ofText?_eq_some_iff.2 h]

/-- A text is a token, or stands for itself. -/
theorem resolveText_cases (r : Resolver) (s : String) :
    r.resolveText s = .ok (.text s) ∨
      ∃ meaning, Variable.TakenFor s meaning ∧ r.resolveText s = r.value s meaning := by
  cases h : Variable.ofText? s with
  | none =>
      refine .inl ?_
      rw [resolveText, h]
  | some meaning =>
      have htaken : Variable.TakenFor s meaning := Variable.ofText?_eq_some_iff.1 h
      exact .inr ⟨meaning, htaken, resolveText_of_takenFor htaken⟩

/-- A token is turned down because someone is missing or because a field is. -/
theorem TurnsDown.of_value {meaning : Variable} (htaken : Variable.TakenFor s meaning)
    (h : r.value s meaning = refuse reason) : r.TurnsDown s reason := by
  cases meaning with
  | user path =>
      cases hcaller : r.caller.user with
      | none =>
          simp only [value, hcaller] at h
          cases h
          exact .noUser htaken hcaller
      | some u =>
          simp only [value, hcaller] at h
          cases path with
          | none => cases h
          | some path =>
              obtain ⟨rfl, hpath⟩ := lookup_eq_refuse_iff.1 h
              exact .noUserField htaken hcaller hpath
  | role path =>
      cases hcaller : r.caller.role with
      | none =>
          simp only [value, hcaller] at h
          cases h
          exact .noRole htaken hcaller
      | some role =>
          simp only [value, hcaller] at h
          cases path with
          | none => cases h
          | some path =>
              obtain ⟨rfl, hpath⟩ := lookup_eq_refuse_iff.1 h
              exact .noRoleField htaken hcaller hpath
  | tenant =>
      cases hcaller : r.caller.tenant with
      | none =>
          simp only [value, hcaller] at h
          cases h
          exact .noTenant htaken hcaller
      | some tenant =>
          simp only [value, hcaller] at h
          cases h
  | now shift =>
      cases shift with
      | none => cases h
      | some shift =>
          rcases moved_cases r shift with ⟨v, hv, -⟩ | ⟨defect, hd, -⟩
          · cases hv.symm.trans h
          · cases hd.symm.trans h

/-- A token breaks off only as a time that is too far. -/
theorem Strays.of_value {meaning : Variable} {defect : Defect}
    (htaken : Variable.TakenFor s meaning) (h : r.value s meaning = breakOff defect) :
    r.Strays s := by
  cases meaning with
  | user path =>
      rw [value] at h
      split at h
      · cases h
      · split at h
        · cases h
        · exact absurd h lookup_ne_breakOff
  | role path =>
      rw [value] at h
      split at h
      · cases h
      · split at h
        · cases h
        · exact absurd h lookup_ne_breakOff
  | tenant =>
      rw [value] at h
      split at h <;> cases h
  | now shift =>
      cases shift with
      | none => cases h
      | some shift =>
          rcases moved_cases r shift with ⟨v, hv, -⟩ | ⟨-, -, hfar⟩
          · cases hv.symm.trans h
          · exact ⟨shift, htaken, hfar⟩

/-- A text is turned down for the reasons given, and for no other ones. -/
theorem resolveText_eq_refuse_iff : r.resolveText s = refuse reason ↔ r.TurnsDown s reason := by
  constructor
  · intro h
    rcases resolveText_cases r s with hself | ⟨meaning, htaken, heq⟩
    · cases hself.symm.trans h
    · exact .of_value htaken (heq.symm.trans h)
  · intro h
    cases h with
    | noUser h hcaller | noRole h hcaller | noTenant h hcaller =>
        rw [resolveText_of_takenFor h]
        simp only [value, hcaller]
    | noUserField h hcaller hpath | noRoleField h hcaller hpath =>
        rw [resolveText_of_takenFor h]
        simp only [value, hcaller]
        exact lookup_eq_refuse_iff.2 ⟨rfl, hpath⟩

/-- A text breaks off iff it asks for a time that is too far. -/
theorem resolveText_eq_breakOff_iff :
    (∃ defect, r.resolveText s = breakOff defect) ↔ r.Strays s := by
  constructor
  · rintro ⟨defect, h⟩
    rcases resolveText_cases r s with hself | ⟨meaning, htaken, heq⟩
    · cases hself.symm.trans h
    · exact .of_value htaken (heq.symm.trans h)
  · rintro ⟨shift, htaken, hfar⟩
    rw [resolveText_of_takenFor htaken]
    rcases moved_cases r shift with ⟨-, -, hnear⟩ | ⟨defect, hd, -⟩
    · exact absurd hfar hnear
    · exact ⟨defect, hd⟩

/-- A text has a value iff it is not turned down and does not break off. -/
theorem resolveText_eq_ok_iff : (∃ v, r.resolveText s = .ok v) ↔ r.Succeeds s := by
  rw [Succeeds, ← resolveText_eq_breakOff_iff]
  simp only [← resolveText_eq_refuse_iff]
  rcases h : r.resolveText s with (reason | defect) | v
  · exact iff_of_false (by simp) (fun h => h.1 reason rfl)
  · exact iff_of_false (by simp) (fun h => h.2 ⟨defect, rfl⟩)
  · exact iff_of_true ⟨v, rfl⟩ ⟨fun _ => nofun, fun h => nomatch h.choose_spec⟩

end Resolver

/-! ## Text by text -/

namespace Value

mutual

/-- The texts of a value from left to right; those of a record are in its values. -/
def texts : Value → List String
  | .text s => [s]
  | .list items | .tuple items => textsOfItems items
  | .record entries => textsOfEntries entries
  | _ => []

/-- The texts of several values. -/
def textsOfItems : List Value → List String
  | [] => []
  | v :: vs => texts v ++ textsOfItems vs

/-- The texts of the values of several entries. -/
def textsOfEntries : List (String × Value) → List String
  | [] => []
  | (_, v) :: es => texts v ++ textsOfEntries es

end

end Value

namespace Resolver

/-- A text is resolved, and its value left out. -/
def check (r : Resolver) (s : String) : Outcome Unit :=
  (r.resolveText s).map fun _ => ()

mutual

/-- A value fails as its texts do, one after another. -/
theorem resolve_eq_forM (r : Resolver) :
    ∀ v, (r.resolve v).map (fun _ => ()) = forM v.texts r.check
  | .text s => by
      rw [resolve, Value.texts]
      show r.check s = r.check s >>= fun _ => pure ()
      exact (bind_pure _).symm
  | .list items | .tuple items => by
      rw [resolve, Value.texts, ← resolveItems_eq_forM r items, Outcome.bind_map_unit]
      cases r.resolveItems items <;> rfl
  | .record entries => by
      rw [resolve, Value.texts, ← resolveEntries_eq_forM r entries, Outcome.bind_map_unit]
      cases r.resolveEntries entries <;> rfl
  | .null | .bool _ | .int _ | .float _ | .decimal _ | .bytes _ | .datetime _ | .date _ | .time _
  | .uuid _ | .set _ => rfl

/-- Several values fail as their texts do. -/
theorem resolveItems_eq_forM (r : Resolver) :
    ∀ vs, (r.resolveItems vs).map (fun _ => ()) = forM (Value.textsOfItems vs) r.check
  | [] => rfl
  | v :: vs => by
      rw [resolveItems, Value.textsOfItems, List.forM_append, ← resolve_eq_forM r v,
        ← resolveItems_eq_forM r vs]
      cases r.resolve v with
      | error e => rfl
      | ok w => cases r.resolveItems vs <;> rfl

/-- Entries fail as the texts of their values do. -/
theorem resolveEntries_eq_forM (r : Resolver) :
    ∀ es, (r.resolveEntries es).map (fun _ => ()) = forM (Value.textsOfEntries es) r.check
  | [] => rfl
  | (name, v) :: es => by
      rw [resolveEntries, Value.textsOfEntries, List.forM_append, ← resolve_eq_forM r v,
        ← resolveEntries_eq_forM r es]
      cases r.resolve v with
      | error e => rfl
      | ok w => cases r.resolveEntries es <;> rfl

end

/-- One of the texts has the property, and all before it have a value. -/
def First (r : Resolver) (texts : List String) (P : String → Prop) : Prop :=
  ∃ before s after, texts = before ++ s :: after ∧ (∀ t ∈ before, r.Succeeds t) ∧ P s

variable {r : Resolver} {s : String} {v : Value} {e : Failure}

theorem check_eq_ok_iff : r.check s = .ok () ↔ r.Succeeds s := by
  rw [check, Outcome.map_unit_eq_ok, resolveText_eq_ok_iff]

theorem check_eq_error_iff : r.check s = .error e ↔ r.resolveText s = .error e :=
  Outcome.map_eq_error

/-- A value fails as the first of its texts that fails. -/
theorem resolve_eq_error_iff :
    r.resolve v = .error e ↔ r.First v.texts (r.resolveText · = .error e) := by
  rw [← Outcome.map_eq_error (f := fun _ => ()), resolve_eq_forM, Outcome.forM_eq_error, First]
  simp only [check_eq_ok_iff, check_eq_error_iff]

end Resolver

/-- **How resolving a value ends.** There is a value iff every text of it has one. Otherwise the
first text without one decides: it is turned down because the caller has no user, role or tenant, or
because the profile does not have a field, or else it asks for a time too far away for the calendar
or for reading its number, and then the computation breaks off. -/
theorem resolve_ends (r : Resolver) (v : Value) :
    ((∃ w, r.resolve v = .ok w) ↔ ∀ s ∈ v.texts, r.Succeeds s) ∧
    (∀ reason, r.resolve v = refuse reason ↔ r.First v.texts (r.TurnsDown · reason)) ∧
    (∀ reason, r.resolve v = refuse reason →
      reason.sort = .accessDenied ∨ reason.sort = .unresolvableVariable) ∧
    ((∃ defect, r.resolve v = breakOff defect) ↔ r.First v.texts r.Strays) := by
  have hrefuse (reason : Refusal) :
      r.resolve v = refuse reason ↔ r.First v.texts (r.TurnsDown · reason) := by
    rw [refuse, Resolver.resolve_eq_error_iff]
    simp only [← Resolver.resolveText_eq_refuse_iff, refuse]
  refine ⟨?_, hrefuse, ?_, ?_⟩
  · rw [← Outcome.map_unit_eq_ok (u := ()), Resolver.resolve_eq_forM, Outcome.forM_eq_ok]
    simp only [Resolver.check_eq_ok_iff]
  · intro reason h
    obtain ⟨_, _, _, -, -, hs⟩ := (hrefuse reason).1 h
    exact hs.sort_eq
  · simp only [breakOff, Resolver.resolve_eq_error_iff, Resolver.First,
      ← Resolver.resolveText_eq_breakOff_iff]
    constructor
    · rintro ⟨defect, before, s, after, htexts, hbefore, hs⟩
      exact ⟨before, s, after, htexts, hbefore, defect, hs⟩
    · rintro ⟨before, s, after, htexts, hbefore, defect, hs⟩
      exact ⟨defect, before, s, after, htexts, hbefore, hs⟩

/-- A year that the calendar does not have and a distance beyond all counting break off. -/
theorem far_time_breaks_off :
    Sample.resolver.resolve (.text "$NOW+YEARS_9999") = breakOff .invalidValue ∧
    Sample.resolver.resolve (.list [.text "$NOW-DAYS_99999999999"]) = breakOff .overflow := by
  exact ⟨by rfl, by rfl⟩

end Warden
