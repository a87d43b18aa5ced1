import Mathlib.Data.List.Basic
import Warden.Filter.Evaluation
import Warden.Proofs.Named
import Warden.Proofs.Value.Equality

/-! # Containment of JSON values

The database says which JSON values contain which (**`Value.Contains`**): records contain records
entry by entry, lists contain lists if every item is contained in one of the others, and single
values contain those that are equal and of the same JSON type. Only at the top a list also contains
a single value that is equal to an item of it.

In memory the same question is decided by recursion, and always for JSON values
(**`yields_isContainedIn`**). What the database finds is found there, too, but not the other way
around: below the top a single value is also found as an item of a list, at any depth, and truth
values are found as the numbers zero and one. Single values are compared where the two JSON values
have them at places that correspond (**`Value.Meets`**), so these are the places to look at, and a
value without single values (**`Value.Hollow`**) is judged alike in all others:
**`containment_agrees`**. -/

namespace Warden

namespace Value

/-! ## Containment in the database -/

/-- The types of single JSON values. -/
inductive JsonType where
  | null
  | truth
  | number
  | text
deriving DecidableEq

/-- The type of a single JSON value. -/
def jsonType? : Value → Option JsonType
  | .null => some .null
  | .bool _ => some .truth
  | .int _ | .float (.finite ..) => some .number
  | .text _ => some .text
  | _ => none

/-- The two are equal single values of one JSON type. -/
structure SameSingle (a e : Value) : Prop where
  /-- They have a type in common. -/
  type : ∃ t, a.jsonType? = some t ∧ e.jsonType? = some t
  /-- They are equal. -/
  same : a.same e = true

mutual

/-- The first JSON value contains the second, at the top or inside of other values. -/
inductive Contains : (top : Bool) → Value → Value → Prop where
  /-- A single value contains itself. -/
  | single {top : Bool} {a e : Value} (h : a.SameSingle e) : Contains top a e
  /-- At the top a list contains its single items. -/
  | item {as : List Value} {a e : Value} (ha : a ∈ as) (h : a.SameSingle e) :
      Contains true (.list as) e
  /-- A record contains one whose entries it contains. -/
  | record {top : Bool} {as es : List (String × Value)} (h : ContainsEntries as es) :
      Contains top (.record as) (.record es)
  /-- A list contains one whose items it contains. -/
  | list {top : Bool} {as es : List Value} (h : ContainsItems as es) :
      Contains top (.list as) (.list es)

/-- The record has a value under every name that contains the one of the entry. -/
inductive ContainsEntries : (as es : List (String × Value)) → Prop where
  | nil {as : List (String × Value)} : ContainsEntries as []
  | cons {as es : List (String × Value)} {name : String} {a e : Value}
      (ha : as.lookup name = some a) (h : Contains false a e) (hes : ContainsEntries as es) :
      ContainsEntries as ((name, e) :: es)

/-- The list has for every item one that contains it. -/
inductive ContainsItems : (as es : List Value) → Prop where
  | nil {as : List Value} : ContainsItems as []
  | cons {as es : List Value} {a e : Value} (ha : a ∈ as) (h : Contains false a e)
      (hes : ContainsItems as es) : ContainsItems as (e :: es)

end

variable {top : Bool} {a e : Value}

theorem containsEntries_iff {as es : List (String × Value)} : ContainsEntries as es ↔
    ∀ name e, (name, e) ∈ es → ∃ a, as.lookup name = some a ∧ Contains false a e := by
  induction es with
  | nil => exact iff_of_true .nil nofun
  | cons entry es ih =>
      obtain ⟨name, e⟩ := entry
      constructor
      · rintro (_ | ⟨ha, h, hes⟩) other v hmem
        rcases List.mem_cons.1 hmem with heq | hmem
        · cases heq
          exact ⟨_, ha, h⟩
        · exact ih.1 hes other v hmem
      · intro h
        obtain ⟨a, ha, hcontains⟩ := h name e List.mem_cons_self
        exact .cons ha hcontains (ih.2 fun other v hmem => h other v (List.mem_cons_of_mem _ hmem))

theorem containsItems_iff {as es : List Value} : ContainsItems as es ↔
    ∀ e ∈ es, ∃ a ∈ as, Contains false a e := by
  induction es with
  | nil => exact iff_of_true .nil nofun
  | cons e es ih =>
      rw [List.forall_mem_cons, ← ih]
      constructor
      · rintro (_ | ⟨ha, h, hes⟩)
        exact ⟨⟨_, ha, h⟩, hes⟩
      · rintro ⟨⟨a, ha, h⟩, hes⟩
        exact .cons ha h hes

/-- What is neither a list nor a record. -/
def isSingle : Value → Bool
  | .list _ | .record _ => false
  | _ => true

theorem SameSingle.isSingle (h : a.SameSingle e) : a.isSingle = true ∧ e.isSingle = true := by
  obtain ⟨t, ha, he⟩ := h.type
  constructor
  · cases a <;> first | rfl | cases ha
  · cases e <;> first | rfl | cases he

/-- A record is contained in records only. -/
theorem contains_record_iff {es : List (String × Value)} : Contains top a (.record es) ↔
    ∃ as, a = .record as ∧
      ∀ name e, (name, e) ∈ es → ∃ v, as.lookup name = some v ∧ Contains false v e := by
  constructor
  · rintro (h | ⟨_, h⟩ | h | _)
    · exact absurd h.isSingle.2 Bool.false_ne_true
    · exact absurd h.isSingle.2 Bool.false_ne_true
    · exact ⟨_, rfl, containsEntries_iff.1 h⟩
  · rintro ⟨as, rfl, h⟩
    exact .record (containsEntries_iff.2 h)

/-- A list is contained in lists only. -/
theorem contains_list_iff {es : List Value} : Contains top a (.list es) ↔
    ∃ as, a = .list as ∧ ∀ e ∈ es, ∃ v ∈ as, Contains false v e := by
  constructor
  · rintro (h | ⟨_, h⟩ | _ | h)
    · exact absurd h.isSingle.2 Bool.false_ne_true
    · exact absurd h.isSingle.2 Bool.false_ne_true
    · exact ⟨_, rfl, containsItems_iff.1 h⟩
  · rintro ⟨as, rfl, h⟩
    exact .list (containsItems_iff.2 h)

/-! ## Containment in memory -/

/-- Induction over JSON values: the statement may be used for each item and for the value of each
entry. -/
@[elab_as_elim]
theorem nestedInduction {motive : Value → Prop}
    (list : ∀ items, (∀ v ∈ items, motive v) → motive (.list items))
    (record : ∀ entries, (∀ name v, (name, v) ∈ entries → motive v) → motive (.record entries))
    (single : ∀ v, v.isSingle = true → motive v) : ∀ v, motive v
  | .list items => list items fun v _ => nestedInduction list record single v
  | .record entries => record entries fun _ v _ => nestedInduction list record single v
  | .null => single _ rfl
  | .bool _ => single _ rfl
  | .int _ => single _ rfl
  | .float _ => single _ rfl
  | .decimal _ => single _ rfl
  | .text _ => single _ rfl
  | .bytes _ => single _ rfl
  | .datetime _ => single _ rfl
  | .date _ => single _ rfl
  | .time _ => single _ rfl
  | .uuid _ => single _ rfl
  | .tuple _ => single _ rfl
  | .set _ => single _ rfl
decreasing_by
  · -- an item is smaller than its list
    have hlt := List.sizeOf_lt_of_mem ‹_›
    rw [Value.list.sizeOf_spec]
    omega
  · -- and so is the value of an entry, which is a pair, than its record
    have hlt := List.sizeOf_lt_of_mem ‹_›
    rw [Prod.mk.sizeOf_spec] at hlt
    rw [Value.record.sizeOf_spec]
    omega

mutual

/-- The value, or an item of it at any depth, equals a single value. -/
def holdsScalar (e : Value) : Value → Bool
  | .list items => itemsHoldScalar e items
  | a => a.same e

/-- One of the items, or an item of it at any depth, equals a single value. -/
def itemsHoldScalar (e : Value) : List Value → Bool
  | [] => false
  | a :: as => holdsScalar e a || itemsHoldScalar e as

end

mutual

/-- The first JSON value is contained in the second, as memory has it where all single values can be
compared. -/
def jsonContainedIn : Value → Value → Bool
  | .record entries, actual =>
    match actual with
    | .record as => entriesContainedIn entries as
    | _ => false
  | .list items, actual =>
    match actual with
    | .list as => itemsContainedIn items as
    | _ => false
  | e, actual => holdsScalar e actual

/-- The record has a containing value for every entry. -/
def entriesContainedIn : List (String × Value) → List (String × Value) → Bool
  | [], _ => true
  | (name, e) :: es, as =>
    (match as.lookup name with
      | some a => jsonContainedIn e a
      | none => false) && entriesContainedIn es as

/-- Every item is contained in one of the others. -/
def itemsContainedIn : List Value → List Value → Bool
  | [], _ => true
  | e :: es, as => as.any (jsonContainedIn e) && itemsContainedIn es as

end

theorem itemsHoldScalar_iff {items : List Value} :
    itemsHoldScalar e items = true ↔ ∃ a ∈ items, holdsScalar e a = true := by
  induction items with
  | nil => exact iff_of_false Bool.false_ne_true nofun
  | cons a items ih => rw [itemsHoldScalar, Bool.or_eq_true, ih, List.exists_mem_cons_iff]

theorem entriesContainedIn_iff {es as : List (String × Value)} :
    entriesContainedIn es as = true ↔
      ∀ name e, (name, e) ∈ es → ∃ a, as.lookup name = some a ∧ e.jsonContainedIn a = true := by
  induction es with
  | nil => exact iff_of_true rfl nofun
  | cons entry es ih =>
      obtain ⟨name, e⟩ := entry
      rw [entriesContainedIn, Bool.and_eq_true, ih]
      constructor
      · rintro ⟨hhead, hes⟩ other v hmem
        rcases List.mem_cons.1 hmem with heq | hmem
        · cases heq
          cases ha : as.lookup name with
          | none => simp [ha] at hhead
          | some a => exact ⟨a, rfl, by simpa [ha] using hhead⟩
        · exact hes other v hmem
      · intro h
        obtain ⟨a, ha, hcontained⟩ := h name e List.mem_cons_self
        exact ⟨by simpa [ha] using hcontained,
          fun other v hmem => h other v (List.mem_cons_of_mem _ hmem)⟩

theorem itemsContainedIn_iff {es as : List Value} : itemsContainedIn es as = true ↔
    ∀ e ∈ es, ∃ a ∈ as, e.jsonContainedIn a = true := by
  induction es with
  | nil => exact iff_of_true rfl nofun
  | cons e es ih =>
      rw [itemsContainedIn, Bool.and_eq_true, List.any_eq_true, ih, List.forall_mem_cons]

theorem jsonContainedIn_record_iff {es : List (String × Value)} :
    (record es).jsonContainedIn a = true ↔ ∃ as, a = .record as ∧
      ∀ name e, (name, e) ∈ es → ∃ v, as.lookup name = some v ∧ e.jsonContainedIn v = true := by
  constructor
  · intro h
    cases a with
    | record as => exact ⟨as, rfl, entriesContainedIn_iff.1 h⟩
    | _ => cases h
  · rintro ⟨as, rfl, h⟩
    exact entriesContainedIn_iff.2 h

theorem jsonContainedIn_list_iff {es : List Value} :
    (list es).jsonContainedIn a = true ↔ ∃ as, a = .list as ∧
      ∀ e ∈ es, ∃ v ∈ as, e.jsonContainedIn v = true := by
  constructor
  · intro h
    cases a with
    | list as => exact ⟨as, rfl, itemsContainedIn_iff.1 h⟩
    | _ => cases h
  · rintro ⟨as, rfl, h⟩
    exact itemsContainedIn_iff.2 h

/-- A single value is contained wherever it is held. -/
theorem jsonContainedIn_of_isSingle (he : e.isSingle = true) (a : Value) :
    e.jsonContainedIn a = holdsScalar e a := by
  cases e with
  | list | record => cases he
  | _ => rfl

theorem isContainedIn_of_isSingle (he : e.isSingle = true) (a : Value) :
    e.isContainedIn a = findScalar e a := by
  cases e with
  | list | record => cases he
  | _ => rfl

/-- A single value holds the values that are equal to it. -/
theorem holdsScalar_of_isSingle (ha : a.isSingle = true) (e : Value) :
    holdsScalar e a = a.same e := by
  cases a with
  | list | record => cases ha
  | _ => rfl

theorem findScalar_of_isSingle (ha : a.isSingle = true) (e : Value) :
    findScalar e a = a.equals e := by
  cases a with
  | list | record => cases ha
  | _ => rfl

/-- **Memory misses nothing**: what the database finds contained is found there, too. -/
theorem jsonContainedIn_of_contains (h : Contains top a e) : e.jsonContainedIn a = true := by
  -- the induction is on the contained value, which both recursions take apart
  induction e using nestedInduction generalizing top a with
  | list es ih =>
      obtain ⟨as, rfl, hitems⟩ := contains_list_iff.1 h
      refine jsonContainedIn_list_iff.2 ⟨as, rfl, fun e he => ?_⟩
      obtain ⟨v, hv, hcontains⟩ := hitems e he
      exact ⟨v, hv, ih e he hcontains⟩
  | record es ih =>
      obtain ⟨as, rfl, hentries⟩ := contains_record_iff.1 h
      refine jsonContainedIn_record_iff.2 ⟨as, rfl, fun name e he => ?_⟩
      obtain ⟨v, hv, hcontains⟩ := hentries name e he
      exact ⟨v, hv, ih name e he hcontains⟩
  | single e he =>
      rw [jsonContainedIn_of_isSingle he]
      cases h with
      | single h => rw [holdsScalar_of_isSingle h.isSingle.1, h.same]
      | item ha h =>
          rw [holdsScalar]
          refine itemsHoldScalar_iff.2 ⟨_, ha, ?_⟩
          rw [holdsScalar_of_isSingle h.isSingle.1, h.same]
      | record => cases he
      | list => cases he

/-! ## Places that correspond -/

/-- Whether the first JSON value contains the second depends on whether the third contains the
fourth: they stand in them at places that correspond, or are them. -/
inductive Meets (a e : Value) : (top : Bool) → Value → Value → Prop where
  /-- The two themselves. -/
  | start : Meets a e true a e
  /-- The values of two entries of one name. -/
  | entry {top : Bool} {as es : List (String × Value)} {name : String} {x y : Value}
      (h : Meets a e top (.record as) (.record es)) (hx : as.lookup name = some x)
      (hy : (name, y) ∈ es) : Meets a e false x y
  /-- Any two items of two lists. -/
  | item {top : Bool} {as es : List Value} {x y : Value}
      (h : Meets a e top (.list as) (.list es)) (hx : x ∈ as) (hy : y ∈ es) : Meets a e false x y

/-- Lists hold a single value only as an item of theirs and at the top, and other values hold those
of their own type. -/
def HeldAsIs (top : Bool) (x y : Value) : Prop :=
  x.SameSingle y ∨ top = true ∧ ∃ items, x = .list items ∧ ∃ v ∈ items, v.SameSingle y

/-- Where a single value of the second JSON value meets a value of the first that holds it, no list
holds it that may not, and no equal value of another type stands there. -/
def Clear (a e : Value) : Prop :=
  ∀ top x y, Meets a e top x y → y.isSingle = true → holdsScalar y x = true → HeldAsIs top x y

/-- What memory finds contained is so if all single values are told apart. -/
theorem contains_of_meets {whole part : Value} (hclear : Clear whole part)
    (hmeets : Meets whole part top a e) (h : e.jsonContainedIn a = true) : Contains top a e := by
  induction e using nestedInduction generalizing top a with
  | list es ih =>
      obtain ⟨as, rfl, hitems⟩ := jsonContainedIn_list_iff.1 h
      refine contains_list_iff.2 ⟨as, rfl, fun e he => ?_⟩
      obtain ⟨v, hv, hcontained⟩ := hitems e he
      exact ⟨v, hv, ih e he (hmeets.item hv he) hcontained⟩
  | record es ih =>
      obtain ⟨as, rfl, hentries⟩ := jsonContainedIn_record_iff.1 h
      refine contains_record_iff.2 ⟨as, rfl, fun name e he => ?_⟩
      obtain ⟨v, hv, hcontained⟩ := hentries name e he
      exact ⟨v, hv, ih name e he (hmeets.entry hv he) hcontained⟩
  | single e he =>
      rw [jsonContainedIn_of_isSingle he] at h
      rcases hclear top a e hmeets he h with hsame | ⟨rfl, items, rfl, v, hv, hsame⟩
      · exact .single hsame
      · exact .item hv hsame

/-! ## Values that can be compared -/

/-- The value is JSON: a record has one value under each name. -/
inductive IsJson : Value → Prop where
  | single {v : Value} (h : v.jsonType?.isSome = true) : IsJson v
  | list {items : List Value} (h : ∀ v ∈ items, IsJson v) : IsJson (.list items)
  | record {entries : Record} (hnames : entries.names.Nodup)
      (h : ∀ name v, (name, v) ∈ entries → IsJson v) : IsJson (.record entries)

theorem IsJson.items {items : List Value} (h : IsJson (.list items)) : ∀ v ∈ items, IsJson v := by
  cases h with
  | single h => cases h
  | list h => exact h

theorem IsJson.entries {entries : Record} (h : IsJson (.record entries)) :
    ∀ name v, (name, v) ∈ entries → IsJson v := by
  cases h with
  | single h => cases h
  | record _ h => exact h

theorem IsJson.signals_eq_false (h : IsJson e) : e.signals = false := by
  cases h with
  | single h => cases e <;> first | rfl | cases h
  | list | record => rfl

/-- An answer, if there is one, is this one, and there is one if the statement holds. -/
structure Yields (t : Prop) (x : Except Defect Bool) (b : Bool) : Prop where
  /-- No other answer. -/
  eq_of_ok : ∀ c, x = .ok c → b = c
  /-- The answer. -/
  eq_ok : t → x = .ok b

namespace Yields

variable {t : Prop} {x y : Except Defect Bool} {b c : Bool}

theorem ok (b : Bool) : Yields t (.ok b) b :=
  ⟨fun _ h => Except.ok.inj h, fun _ => rfl⟩

/-- The second question is asked only after the first is answered, by true or by false. -/
theorem ite {z : Except Defect Bool} {d : Bool} (hx : Yields t x b) (hy : Yields t y c)
    (hz : Yields t z d) : Yields t (do if ← x then y else z) (if b then c else d) where
  eq_of_ok b' h := by
    cases hxb : x with
    | error e => rw [hxb] at h; cases h
    | ok b₁ =>
        rw [hxb, ← hx.eq_of_ok b₁ hxb] at h
        cases b with
        | true => exact hy.eq_of_ok b' h
        | false => exact hz.eq_of_ok b' h
  eq_ok ht := by
    rw [hx.eq_ok ht]
    cases b with
    | true => exact hy.eq_ok ht
    | false => exact hz.eq_ok ht

theorem or (hx : Yields t x b) (hy : Yields t y c) :
    Yields t (do if ← x then return true else y) (b || c) := by
  have h := hx.ite (ok true) hy
  cases b <;> exact h

theorem and (hx : Yields t x b) (hy : Yields t y c) :
    Yields t (do if ← x then y else return false) (b && c) := by
  have h := hx.ite hy (ok false)
  cases b <;> exact h

theorem anyM {p : Value → Except Defect Bool} {q : Value → Bool} {as : List Value}
    (h : ∀ a ∈ as, Yields t (p a) (q a)) : Yields t (as.anyM p) (as.any q) := by
  induction as with
  | nil => exact ok false
  | cons a as ih =>
      have hcons : (a :: as).anyM p = (do if ← p a then return true else as.anyM p) :=
        congrArg (p a >>= ·) (funext fun b => by cases b <;> rfl)
      rw [List.any_cons, hcons]
      exact (h a List.mem_cons_self).or (ih fun a ha => h a (List.mem_cons_of_mem _ ha))

end Yields

variable {t : Prop}

theorem yields_equals (ha : t → a.signals = false) (he : t → e.signals = false) :
    Yields t (a.equals e) (a.same e) := by
  unfold equals
  constructor
  · intro c h
    split at h
    · cases h
    · exact Except.ok.inj h
  · intro ht
    rw [ha ht, he ht]
    rfl

theorem yields_findScalarAmong {as : List Value}
    (h : ∀ a ∈ as, Yields t (findScalar e a) (holdsScalar e a)) :
    Yields t (findScalarAmong e as) (itemsHoldScalar e as) := by
  induction as with
  | nil => exact .ok false
  | cons a as ih =>
      rw [findScalarAmong, itemsHoldScalar]
      exact (h a List.mem_cons_self).or (ih fun a ha => h a (List.mem_cons_of_mem _ ha))

theorem yields_findScalar (he : t → IsJson e) (ha : t → IsJson a) :
    Yields t (findScalar e a) (holdsScalar e a) := by
  induction a using nestedInduction with
  | list items ih =>
      rw [findScalar, holdsScalar]
      exact yields_findScalarAmong fun v hv => ih v hv fun ht => (ha ht).items v hv
  | record entries => exact yields_equals (fun _ => rfl) fun ht => (he ht).signals_eq_false
  | single a hsingle =>
      rw [findScalar_of_isSingle hsingle, holdsScalar_of_isSingle hsingle]
      exact yields_equals (fun ht => (ha ht).signals_eq_false) fun ht => (he ht).signals_eq_false

theorem yields_itemsAreContainedIn {es as : List Value}
    (h : ∀ e ∈ es, ∀ a ∈ as, Yields t (e.isContainedIn a) (e.jsonContainedIn a)) :
    Yields t (itemsAreContainedIn es as) (itemsContainedIn es as) := by
  induction es with
  | nil => exact .ok true
  | cons e es ih =>
      rw [itemsAreContainedIn, itemsContainedIn]
      exact (Yields.anyM (h e List.mem_cons_self)).and
        (ih fun e he => h e (List.mem_cons_of_mem _ he))

theorem yields_entriesAreContainedIn {es as : Record}
    (h : ∀ name e, (name, e) ∈ es → ∀ a, as.lookup name = some a →
      Yields t (e.isContainedIn a) (e.jsonContainedIn a)) :
    Yields t (entriesAreContainedIn es as) (entriesContainedIn es as) := by
  induction es with
  | nil => exact .ok true
  | cons entry es ih =>
      obtain ⟨name, e⟩ := entry
      rw [entriesAreContainedIn, entriesContainedIn]
      cases ha : as.lookup name with
      | none => exact .ok false
      | some a =>
          exact (h name e List.mem_cons_self a ha).and
            (ih fun name e he => h name e (List.mem_cons_of_mem _ he))

/-- **Memory decides containment by equality**, wherever it decides it, and does for JSON values. -/
theorem yields_isContainedIn (he : t → IsJson e) (ha : t → IsJson a) :
    Yields t (e.isContainedIn a) (e.jsonContainedIn a) := by
  induction e using nestedInduction generalizing a with
  | list es ih =>
      cases a with
      | list as =>
          rw [isContainedIn, jsonContainedIn]
          exact yields_itemsAreContainedIn fun e hmem v hv =>
            ih e hmem (fun ht => (he ht).items e hmem) fun ht => (ha ht).items v hv
      | _ => exact .ok false
  | record es ih =>
      cases a with
      | record as =>
          rw [isContainedIn, jsonContainedIn]
          exact yields_entriesAreContainedIn fun name e hmem v hv =>
            ih name e hmem (fun ht => (he ht).entries name e hmem)
              fun ht => (ha ht).entries name v (Named.mem_of_find? hv)
      | _ => exact .ok false
  | single e hsingle =>
      rw [isContainedIn_of_isSingle hsingle, jsonContainedIn_of_isSingle hsingle]
      exact yields_findScalar he ha

/-! ## Values without single values -/

/-- The value is made of lists and records alone. -/
inductive Hollow : Value → Prop where
  | list {items : List Value} (h : ∀ v ∈ items, Hollow v) : Hollow (.list items)
  | record {entries : Record} (h : ∀ name v, (name, v) ∈ entries → Hollow v) :
      Hollow (.record entries)

theorem Hollow.not_isSingle (h : Hollow e) : e.isSingle = false := by
  cases h <;> rfl

/-- What a hollow value has at a place is hollow. -/
theorem Meets.hollow {x y : Value} (h : Meets a e top x y) (he : Hollow e) : Hollow y := by
  induction h with
  | start => exact he
  | entry _ _ hy ih =>
      cases ih with
      | record h => exact h _ _ hy
  | item _ _ hy ih =>
      cases ih with
      | list h => exact h _ hy

theorem Hollow.clear (he : Hollow e) (a : Value) : Clear a e := by
  intro top x y hmeets hy
  rw [(hmeets.hollow he).not_isSingle] at hy
  cases hy

/-- The value as the only item of a list, that list as the only item of another one, and so on. -/
def inLists (v : Value) : (n : Nat) → Value
  | 0 => v
  | n + 1 => .list [inLists v n]

mutual

/-- The value with every single value in it put into that many lists. -/
def buried (n : Nat) : Value → Value
  | .list items => .list (buriedItems n items)
  | .record entries => .record (buriedEntries n entries)
  -- all other values are single
  | v => inLists v n

/-- The items with their single values put into lists. -/
def buriedItems (n : Nat) : List Value → List Value
  | [] => []
  | v :: vs => buried n v :: buriedItems n vs

/-- The entries with their single values put into lists. -/
def buriedEntries (n : Nat) : List (String × Value) → List (String × Value)
  | [] => []
  | (name, v) :: entries => (name, buried n v) :: buriedEntries n entries

end

theorem buried_of_isSingle (he : e.isSingle = true) (n : Nat) : e.buried n = e.inLists n := by
  cases e with
  | list | record => cases he
  | _ => rfl

theorem mem_buriedItems {n : Nat} {items : List Value} {v : Value} :
    v ∈ buriedItems n items ↔ ∃ w ∈ items, w.buried n = v := by
  induction items with
  | nil => exact iff_of_false nofun nofun
  | cons w items ih => rw [buriedItems, List.mem_cons, ih, List.exists_mem_cons_iff, eq_comm]

theorem mem_buriedEntries {n : Nat} {entries : Record} {name : String} {v : Value} :
    (name, v) ∈ buriedEntries n entries ↔ ∃ w, (name, w) ∈ entries ∧ w.buried n = v := by
  induction entries with
  | nil => exact iff_of_false nofun nofun
  | cons entry entries ih =>
      obtain ⟨other, w⟩ := entry
      rw [buriedEntries, List.mem_cons, ih]
      constructor
      · rintro (heq | ⟨w', hw', rfl⟩)
        · cases heq
          exact ⟨w, List.mem_cons_self, rfl⟩
        · exact ⟨w', List.mem_cons_of_mem _ hw', rfl⟩
      · rintro ⟨w', hw', rfl⟩
        rcases List.mem_cons.1 hw' with heq | hw'
        · cases heq
          exact .inl rfl
        · exact .inr ⟨w', hw', rfl⟩

theorem names_buriedEntries (n : Nat) (entries : Record) :
    Named.names (buriedEntries n entries) = entries.names := by
  induction entries with
  | nil => rfl
  | cons entry entries ih => exact congrArg (entry.1 :: ·) ih

theorem isSingle_of_jsonType? (h : e.jsonType?.isSome = true) : e.isSingle = true := by
  cases e with
  | list | record => cases h
  | _ => rfl

theorem IsJson.buried (he : IsJson e) (n : Nat) : IsJson (e.buried n) := by
  induction he with
  | single h =>
      rw [buried_of_isSingle (isSingle_of_jsonType? h)]
      induction n with
      | zero => exact .single h
      | succ n ih => exact .list (List.forall_mem_singleton.2 ih)
  | list h ih =>
      rw [Value.buried]
      refine .list fun v hv => ?_
      obtain ⟨w, hw, rfl⟩ := mem_buriedItems.1 hv
      exact ih w hw
  | record hnames h ih =>
      rw [Value.buried]
      refine .record ((names_buriedEntries n _).symm ▸ hnames) fun name v hv => ?_
      obtain ⟨w, hw, rfl⟩ := mem_buriedEntries.1 hv
      exact ih name w hw

/-- A single JSON value is equal to itself. -/
theorem same_self_of_jsonType? (h : e.jsonType?.isSome = true) : e.same e = true := by
  have hatom : e.isAtom = true := by
    cases e with
    | list | tuple | set | record => cases h
    | _ => rfl
  rw [same_of_isAtom hatom]
  cases e with
  | null => rfl
  | bool b => cases b <;> rfl
  | int n => simp [sameScalar, number?, Extended.compare?, Scaled.compare_self]
  | float x =>
      cases x with
      | nan | infinite => cases h
      | finite negative mantissa exponent =>
          simp only [sameScalar, number?, Binary64.extended]
          split <;> simp [Extended.compare?, Scaled.compare_self]
  | text s => simp [sameScalar, number?]
  | _ => cases h

/-- In memory a value is contained in itself, however deep its single values are buried. -/
theorem IsJson.jsonContainedIn_buried (he : IsJson e) (n : Nat) :
    e.jsonContainedIn (e.buried n) = true := by
  induction he with
  | single h =>
      have hsingle := isSingle_of_jsonType? h
      rw [buried_of_isSingle hsingle, jsonContainedIn_of_isSingle hsingle]
      induction n with
      | zero => exact (holdsScalar_of_isSingle hsingle _).trans (same_self_of_jsonType? h)
      | succ n ih => exact itemsHoldScalar_iff.2 ⟨_, List.mem_singleton_self _, ih⟩
  | list h ih =>
      rw [Value.buried, jsonContainedIn_list_iff]
      exact ⟨_, rfl, fun v hv => ⟨_, mem_buriedItems.2 ⟨v, hv, rfl⟩, ih v hv⟩⟩
  | record hnames h ih =>
      rw [Value.buried, jsonContainedIn_record_iff]
      refine ⟨_, rfl, fun name v hv => ⟨v.buried n, ?_, ih name v hv⟩⟩
      exact Named.find?_of_mem ((names_buriedEntries n _).symm ▸ hnames)
        (mem_buriedEntries.2 ⟨v, hv, rfl⟩)

/-- No single value stands in the value but behind that many lists or records. -/
inductive Buries : (n : Nat) → Value → Prop where
  | zero {v : Value} : Buries 0 v
  | list {n : Nat} {items : List Value} (h : ∀ v ∈ items, Buries n v) :
      Buries (n + 1) (.list items)
  | record {n : Nat} {entries : Record} (h : ∀ name v, (name, v) ∈ entries → Buries n v) :
      Buries (n + 1) (.record entries)

theorem buries_inLists {m n : Nat} (h : m ≤ n) (v : Value) : Buries m (v.inLists n) := by
  induction m generalizing n with
  | zero => exact .zero
  | succ m ih =>
      obtain ⟨n, rfl⟩ := Nat.exists_eq_add_of_le' (Nat.le_trans (Nat.le_add_left 1 m) h)
      exact .list (List.forall_mem_singleton.2 (ih (Nat.le_of_succ_le_succ h)))

theorem buries_buried {m n : Nat} (h : m ≤ n) (v : Value) : Buries m (v.buried n) := by
  induction v using nestedInduction generalizing m with
  | list items ih =>
      cases m with
      | zero => exact .zero
      | succ m =>
          rw [buried]
          refine .list fun v hv => ?_
          obtain ⟨w, hw, rfl⟩ := mem_buriedItems.1 hv
          exact ih w hw (Nat.le_of_succ_le h)
  | record entries ih =>
      cases m with
      | zero => exact .zero
      | succ m =>
          rw [buried]
          refine .record fun name v hv => ?_
          obtain ⟨w, hw, rfl⟩ := mem_buriedEntries.1 hv
          exact ih name w hw (Nat.le_of_succ_le h)
  | single v hv => exact buried_of_isSingle hv n ▸ buries_inLists h v

theorem Buries.mono {m n : Nat} (h : Buries n e) (hmn : m ≤ n) : Buries m e := by
  induction h generalizing m with
  | zero => exact Nat.le_zero.1 hmn ▸ .zero
  | list _ ih =>
      cases m with
      | zero => exact .zero
      | succ m => exact .list fun v hv => ih v hv (Nat.le_of_succ_le_succ hmn)
  | record _ ih =>
      cases m with
      | zero => exact .zero
      | succ m => exact .record fun name v hv => ih name v hv (Nat.le_of_succ_le_succ hmn)

theorem Buries.not_sameSingle {n : Nat} (h : Buries (n + 1) a) : ¬ a.SameSingle e := by
  intro hsame
  have hsingle := hsame.isSingle.1
  cases h <;> cases hsingle

/-- What the database finds contained where single values are buried deep enough has none. -/
theorem Contains.hollow (h : Contains top a e) (ha : Buries (sizeOf e + 1) a) : Hollow e := by
  -- a step into the one value is a step into the other, and the one is through before single
  -- values of the other are reached
  induction e using nestedInduction generalizing top a with
  | list es ih =>
      obtain ⟨as, rfl, hitems⟩ := contains_list_iff.1 h
      refine .list fun e he => ?_
      obtain ⟨v, hv, hcontains⟩ := hitems e he
      have hlt : sizeOf e + 1 ≤ sizeOf (Value.list es) := by
        have hmem := List.sizeOf_lt_of_mem he
        rw [Value.list.sizeOf_spec]
        omega
      cases ha with
      | list h => exact ih e he hcontains ((h v hv).mono hlt)
  | record es ih =>
      obtain ⟨as, rfl, hentries⟩ := contains_record_iff.1 h
      refine .record fun name e he => ?_
      obtain ⟨v, hv, hcontains⟩ := hentries name e he
      have hlt : sizeOf e + 1 ≤ sizeOf (Value.record es) := by
        have hmem := List.sizeOf_lt_of_mem he
        rw [Prod.mk.sizeOf_spec] at hmem
        rw [Value.record.sizeOf_spec]
        omega
      cases ha with
      | record h => exact ih name e he hcontains ((h name v (Named.mem_of_find? hv)).mono hlt)
  | single e he =>
      cases h with
      | single hsame => exact absurd hsame ha.not_sameSingle
      | item hv hsame =>
          have hpos : 0 + 1 ≤ sizeOf e := by cases e <;> simp
          cases ha with
          | list h => exact absurd hsame ((h _ hv).mono hpos).not_sameSingle
      | record => cases he
      | list => cases he

/-- **Containment in memory is that of the database where single values are told apart.** What the
database finds contained is found in memory, and the other way around if no single value is held by
a list or by a value of another type where it meets one. A JSON value is judged alike in all others
only if it has no single values at all.

Memory has this answer whenever it has one, and it has one for JSON values; only decimals may refuse
to be compared. -/
theorem containment_agrees (a e : Value) :
    (Contains true a e → e.jsonContainedIn a = true) ∧
    (Clear a e → (e.jsonContainedIn a = true ↔ Contains true a e)) ∧
    (IsJson e →
      ((∀ b, IsJson b → (e.jsonContainedIn b = true ↔ Contains true b e)) ↔ Hollow e)) ∧
    (∀ b, e.isContainedIn a = .ok b → e.jsonContainedIn a = b) ∧
    (IsJson a → IsJson e → e.isContainedIn a = .ok (e.jsonContainedIn a)) := by
  have hagrees {b : Value} (hclear : Clear b e) :
      e.jsonContainedIn b = true ↔ Contains true b e :=
    ⟨contains_of_meets hclear .start, jsonContainedIn_of_contains⟩
  have hyields : Yields (IsJson a ∧ IsJson e) (e.isContainedIn a) (e.jsonContainedIn a) :=
    yields_isContainedIn And.right And.left
  refine ⟨jsonContainedIn_of_contains, hagrees, fun he => ⟨fun h => ?_, fun h b _ => ?_⟩,
    hyields.eq_of_ok, fun ha he => hyields.eq_ok ⟨ha, he⟩⟩
  · -- deep in lists memory still finds the single values of a JSON value, and the database does not
    have hfound := he.jsonContainedIn_buried (sizeOf e + 1)
    have hcontains := (h _ (he.buried _)).1 hfound
    exact hcontains.hollow (buries_buried (Nat.le_refl _) e)
  · exact hagrees (h.clear b)

/-- In lists of numbers only numbers meet, and lists of numbers are not hollow. -/
theorem containment_agrees_numbers :
    Clear (.list [.int 1, .int 2]) (.list [.int 2]) ∧ IsJson (.list [.int 2]) ∧
    (jsonContainedIn (.list [.int 2]) (.list [.int 1, .int 2]) = true ↔
      Contains true (.list [.int 1, .int 2]) (.list [.int 2])) ∧
    isContainedIn (.list [.int 2]) (.list [.int 1, .int 2]) = .ok true ∧
    ¬ Hollow (.list [.int 2]) := by
  have hclear : Clear (.list [.int 1, .int 2]) (.list [.int 2]) := by
    intro top x y hmeets hy hheld
    have hplaces : x = .list [.int 1, .int 2] ∧ y = .list [.int 2] ∨
        (x = .int 1 ∨ x = .int 2) ∧ y = .int 2 := by
      clear hy hheld
      induction hmeets with
      | start => exact .inl ⟨rfl, rfl⟩
      | entry _ _ _ ih => simp at ih
      | item _ hx hy ih =>
          simp only [list.injEq, reduceCtorEq, or_self, false_and, or_false] at ih
          obtain ⟨rfl, rfl⟩ := ih
          exact .inr ⟨by simpa using hx, by simpa using hy⟩
    rcases hplaces with ⟨rfl, rfl⟩ | ⟨rfl | rfl, rfl⟩
    · cases hy
    · exact absurd hheld (by decide +kernel)
    · exact .inl ⟨⟨.number, rfl, rfl⟩, by decide +kernel⟩
  have hpart : IsJson (.list [.int 2]) := .list (List.forall_mem_singleton.2 (.single rfl))
  have hwhole : IsJson (.list [.int 1, .int 2]) :=
    .list (List.forall_mem_cons.2 ⟨.single rfl, List.forall_mem_singleton.2 (.single rfl)⟩)
  obtain ⟨-, hagrees, -, -, hanswer⟩ := containment_agrees (.list [.int 1, .int 2]) (.list [.int 2])
  refine ⟨hclear, hpart, hagrees hclear, (hanswer hwhole hpart).trans ?_, ?_⟩
  · exact congrArg Except.ok (by decide +kernel)
  rintro (h | _)
  cases h (.int 2) (List.mem_singleton_self _)

/-- Below the top a list is not its item, a list of lists has no numbers, and one is not true. -/
theorem found_but_not_contained :
    (isContainedIn (.record [("tags", .text "x")]) (.record [("tags", .list [.text "x"])]) =
        .ok true ∧
      ¬ Contains true (.record [("tags", .list [.text "x"])]) (.record [("tags", .text "x")])) ∧
    (isContainedIn (.int 1) (.list [.list [.int 1]]) = .ok true ∧
      ¬ Contains true (.list [.list [.int 1]]) (.int 1)) ∧
    (isContainedIn (.bool true) (.int 1) = .ok true ∧ ¬ Contains true (.int 1) (.bool true)) := by
  refine ⟨⟨by decide +kernel, fun h => ?_⟩, ⟨by decide +kernel, fun h => ?_⟩,
    ⟨by decide +kernel, fun h => ?_⟩⟩
  · obtain ⟨as, has, hentries⟩ := contains_record_iff.1 h
    cases has
    obtain ⟨v, hv, hcontains⟩ := hentries "tags" (.text "x") (List.mem_singleton_self _)
    cases hv
    cases hcontains with
    | single hsame => exact absurd hsame.isSingle.1 Bool.false_ne_true
  · cases h with
    | single hsame => exact absurd hsame.isSingle.1 Bool.false_ne_true
    | item hv hsame =>
        rw [List.mem_singleton.1 hv] at hsame
        exact absurd hsame.isSingle.1 Bool.false_ne_true
  · cases h with
    | single hsame =>
        obtain ⟨t, hone, htrue⟩ := hsame.type
        cases hone
        cases htrue

end Value

end Warden
