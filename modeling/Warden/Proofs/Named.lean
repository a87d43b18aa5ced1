import Mathlib.Data.List.Forall2
import Warden.Named

/-! # Many things under their names

**`Named.putAll`** puts things under their names one after another. A name is then answered with the
last thing that was put under it, and as before if there was none (`find?_putAll`).

Two lists of named things are **`Named.Alike`** if they have the same names at the same places and
things that are related; putting related things into both keeps them alike. -/

namespace Warden.Named

variable {α β : Type}

/-- The first thing stands under the first name, all others behind it. -/
theorem find?_cons (r : Named α) (other name : String) (a : α) :
    find? ((other, a) :: r) name = if name = other then some a else r.find? name := by
  unfold find?
  rw [List.lookup_cons]
  by_cases h : name = other
  · rw [if_pos h, beq_iff_eq.2 h]
  · rw [if_neg h, beq_eq_false_iff_ne.2 h]

/-! ## One after another -/

/-- Puts things under their names, one after another. -/
def putAll (r : Named α) (entries : List (String × α)) : Named α :=
  entries.foldl (fun r entry => r.insert entry.1 entry.2) r

theorem ofEntries_eq_putAll (entries : List (String × α)) : ofEntries entries = putAll [] entries :=
  rfl

@[simp] theorem putAll_cons (r : Named α) (name : String) (a : α) (entries : List (String × α)) :
    r.putAll ((name, a) :: entries) = (r.insert name a).putAll entries := rfl

/-- What is found after one more thing was put there. -/
theorem find?_insert (r : Named α) (name other : String) (a : α) :
    (r.insert name a).find? other = ((insert [] name a).find? other).or (r.find? other) := by
  by_cases h : other = name
  · subst h
    simp only [find?_insert_self, Option.some_or]
  · rw [find?_insert_of_ne r a h, find?_insert_of_ne [] a h]
    rfl

/-- The last thing that was put under a name is found there, else the one that was there before. -/
theorem find?_putAll (r : Named α) (entries : List (String × α)) (name : String) :
    (r.putAll entries).find? name = ((ofEntries entries).find? name).or (r.find? name) := by
  rw [ofEntries_eq_putAll]
  -- the first entry joins what was there before, which therefore varies in the induction
  induction entries generalizing r with
  | nil => rfl
  | cons entry entries ih =>
      obtain ⟨other, a⟩ := entry
      rw [putAll_cons, putAll_cons, ih, ih (insert [] other a), find?_insert r, Option.or_assoc]

/-- A name under which nothing was put is answered as before. -/
theorem find?_putAll_of_notMem (r : Named α) {entries : List (String × α)} {name : String}
    (h : name ∉ names entries) : (r.putAll entries).find? name = r.find? name := by
  induction entries generalizing r with
  | nil => rfl
  | cons entry entries ih =>
      obtain ⟨other, a⟩ := entry
      obtain ⟨hne, hrest⟩ := not_or.1 (mt List.mem_cons.2 h)
      rw [putAll_cons, ih _ hrest, find?_insert_of_ne r a hne]

/-- A thing that is put under a name of its own is found there. -/
theorem find?_putAll_of_nodup (r : Named α) {entries : List (String × α)} {name : String} {a : α}
    (h : (name, a) ∈ entries) (hnames : (names entries).Nodup) :
    (r.putAll entries).find? name = some a := by
  induction entries generalizing r with
  | nil => cases h
  | cons entry entries ih =>
      obtain ⟨other, b⟩ := entry
      obtain ⟨hother, hnames⟩ := List.nodup_cons.1 hnames
      rw [putAll_cons]
      rcases List.mem_cons.1 h with heq | h
      · cases heq
        rw [find?_putAll_of_notMem _ hother, find?_insert_self]
      · exact ih _ h hnames

/-- If one and the same thing is put under all names, it is found under each of them. -/
theorem find?_putAll_of_mem (r : Named α) {entries : List (String × α)} {name : String} {a : α}
    (h : name ∈ names entries) (ha : ∀ entry ∈ entries, entry.2 = a) :
    (r.putAll entries).find? name = some a := by
  induction entries generalizing r with
  | nil => cases h
  | cons entry entries ih =>
      obtain ⟨other, b⟩ := entry
      obtain ⟨rfl, hrest⟩ := List.forall_mem_cons.1 ha
      by_cases hm : name ∈ names entries
      · exact ih _ hm hrest
      · have hname : name = other := (List.mem_cons.1 h).resolve_right hm
        rw [putAll_cons, find?_putAll_of_notMem _ hm, hname, find?_insert_self]

/-- The names after one more thing was put there are those before and the new one. -/
theorem mem_names_insert {r : Named α} {name other : String} {a : α}
    (h : other ∈ (r.insert name a).names) : other = name ∨ other ∈ r.names := by
  induction r with
  | nil => exact .inl (List.mem_singleton.1 h)
  | cons entry r ih =>
      obtain ⟨first, b⟩ := entry
      rw [insert] at h
      split at h
      · exact .inr h
      · rcases List.mem_cons.1 h with rfl | h
        · exact .inr List.mem_cons_self
        · exact (ih h).imp_right (List.mem_cons_of_mem _)

/-- What is found under a name stands there. -/
theorem mem_of_find? {r : Named α} {name : String} {a : α} (h : r.find? name = some a) :
    (name, a) ∈ r := by
  obtain ⟨before, after, rfl, -⟩ := List.lookup_eq_some_iff.1 h
  exact List.mem_append_right _ List.mem_cons_self

/-- The things under names after one more was put there are those before and the new one. -/
theorem mem_insert {r : Named α} {name : String} {a : α} {entry : String × α}
    (h : entry ∈ r.insert name a) : entry = (name, a) ∨ entry ∈ r := by
  induction r with
  | nil => exact .inl (List.mem_singleton.1 h)
  | cons first r ih =>
      obtain ⟨other, b⟩ := first
      rw [insert] at h
      split at h
      case isTrue hname =>
        rw [hname] at h
        exact (List.mem_cons.1 h).imp_right (List.mem_cons_of_mem _)
      case isFalse =>
        rcases List.mem_cons.1 h with rfl | h
        · exact .inr List.mem_cons_self
        · exact (ih h).imp_right (List.mem_cons_of_mem _)

/-- The names after many things were put there are those before and those of the things. -/
theorem mem_names_putAll {r : Named α} {entries : List (String × α)} {name : String}
    (h : name ∈ (r.putAll entries).names) : name ∈ r.names ∨ name ∈ names entries := by
  induction entries generalizing r with
  | nil => exact .inl h
  | cons entry entries ih =>
      obtain ⟨other, a⟩ := entry
      rcases ih h with hr | hentries
      · exact (mem_names_insert hr).elim (fun heq => .inr (heq ▸ List.mem_cons_self)) .inl
      · exact .inr (List.mem_cons_of_mem _ hentries)

/-- What stands under a name is found there if no name stands twice. -/
theorem find?_of_mem {r : Named α} {name : String} {a : α} (hr : r.names.Nodup)
    (h : (name, a) ∈ r) : r.find? name = some a := by
  induction r with
  | nil => cases h
  | cons entry r ih =>
      obtain ⟨other, b⟩ := entry
      obtain ⟨hother, hr⟩ := List.nodup_cons.1 hr
      rw [find?_cons]
      rcases List.mem_cons.1 h with heq | hmem
      · cases heq
        rw [if_pos rfl]
      · have hne : name ≠ other := by
          rintro rfl
          exact hother (List.mem_map.2 ⟨_, hmem, rfl⟩)
        rw [if_neg hne, ih hr hmem]

/-- The names of a first thing and others. -/
theorem names_cons (r : Named α) (name : String) (a : α) :
    names ((name, a) :: r) = name :: names r := rfl

/-- A name is there iff something stands under it. -/
theorem mem_names {r : Named α} {name : String} : name ∈ r.names ↔ ∃ a, (name, a) ∈ r := by
  simp [names]

theorem names_eq_nil {r : Named α} : r.names = [] ↔ r = [] :=
  List.map_eq_nil_iff

/-- The names after one more thing was put there: a new one comes last. -/
theorem names_insert (r : Named α) (name : String) (a : α) :
    (r.insert name a).names = if name ∈ r.names then r.names else r.names ++ [name] := by
  induction r with
  | nil => rfl
  | cons entry r ih =>
      obtain ⟨other, b⟩ := entry
      rw [insert, names_cons]
      split
      case isTrue h => rw [names_cons, h, if_pos List.mem_cons_self]
      case isFalse h =>
        have hmem : name ∈ other :: names r ↔ name ∈ names r :=
          List.mem_cons.trans (or_iff_right (Ne.symm h))
        rw [names_cons, ih]
        simp only [hmem]
        split <;> rfl

/-- No name stands twice if a thing is put under a name where none did. -/
theorem nodup_names_insert {r : Named α} (hr : r.names.Nodup) (name : String) (a : α) :
    (r.insert name a).names.Nodup := by
  rw [names_insert]
  split
  case isTrue => exact hr
  case isFalse h =>
    refine List.nodup_append.2 ⟨hr, by simp, ?_⟩
    rintro other hother _ hname rfl
    exact h (List.mem_singleton.1 hname ▸ hother)

theorem nodup_names_putAll {r : Named α} (hr : r.names.Nodup) (entries : List (String × α)) :
    (r.putAll entries).names.Nodup := by
  induction entries generalizing r with
  | nil => exact hr
  | cons entry entries ih => exact ih (nodup_names_insert hr entry.1 entry.2)

/-- A thing under a new name comes last. -/
theorem insert_of_notMem {r : Named α} {name : String} (h : name ∉ r.names) (a : α) :
    r.insert name a = r ++ [(name, a)] := by
  induction r with
  | nil => rfl
  | cons entry r ih =>
      obtain ⟨other, b⟩ := entry
      obtain ⟨hne, hrest⟩ := not_or.1 (mt List.mem_cons.2 h)
      rw [insert, if_neg (Ne.symm hne), ih hrest]
      rfl

/-- Things under different names that are new come last, in their order. -/
theorem putAll_of_nodup {r : Named α} {entries : List (String × α)}
    (h : (r.names ++ names entries).Nodup) : r.putAll entries = r ++ entries := by
  induction entries generalizing r with
  | nil => exact (List.append_nil r).symm
  | cons entry entries ih =>
      obtain ⟨name, a⟩ := entry
      have hname : name ∉ r.names := fun hmem =>
        (List.nodup_append.1 h).2.2 name hmem name List.mem_cons_self rfl
      rw [putAll_cons, insert_of_notMem hname, ih, List.append_assoc]
      · rfl
      · simpa [names] using h

/-- Nothing changes if no name stands twice. -/
theorem ofEntries_of_nodup {entries : List (String × α)} (h : (names entries).Nodup) :
    ofEntries entries = entries := by
  have hnew : (names ([] : Named α) ++ names entries).Nodup := h
  exact putAll_of_nodup hnew

theorem insert_ne_nil (r : Named α) (name : String) (a : α) : r.insert name a ≠ [] := by
  cases r with
  | nil => exact List.cons_ne_nil _ _
  | cons entry r =>
      rw [insert]
      split <;> exact List.cons_ne_nil _ _

/-- There is nothing only if nothing was there and nothing was put there. -/
theorem putAll_eq_nil {r : Named α} {entries : List (String × α)} :
    r.putAll entries = [] ↔ r = [] ∧ entries = [] := by
  induction entries generalizing r with
  | nil => exact (and_iff_left rfl).symm
  | cons entry entries ih =>
      rw [putAll_cons, ih]
      exact iff_of_false (fun h => insert_ne_nil _ _ _ h.1) (fun h => List.cons_ne_nil _ _ h.2)

/-- The names before as many things are the names of the things. -/
theorem names_zip {names : List String} {as : List α} (h : as.length = names.length) :
    Named.names (names.zip as) = names :=
  List.map_fst_zip (Nat.le_of_eq h.symm)

/-! ## Alike -/

/-- The same names at the same places, and things that are related. -/
def Alike (R : α → β → Prop) (r : Named α) (s : Named β) : Prop :=
  List.Forall₂ (fun entry other => entry.1 = other.1 ∧ R entry.2 other.2) r s

variable {R : α → β → Prop} {r : Named α} {s : Named β}

theorem Alike.names_eq (h : Alike R r s) : r.names = s.names := by
  induction h with
  | nil => rfl
  | cons he _ ih => exact congrArg₂ _ he.1 ih

theorem Alike.refl {R : α → α → Prop} (hR : ∀ a, R a a) (r : Named α) : Alike R r r :=
  List.forall₂_same.2 fun entry _ => ⟨rfl, hR entry.2⟩

/-- The same names before related things. -/
theorem alike_zip (names : List String) {as : List α} {bs : List β} (h : List.Forall₂ R as bs) :
    Alike R (names.zip as) (names.zip bs) := by
  induction names generalizing as bs with
  | nil => exact .nil
  | cons name names ih =>
      cases h with
      | nil => exact .nil
      | cons hab h => exact .cons ⟨rfl, hab⟩ (ih h)

theorem Alike.insert (h : Alike R r s) (name : String) {a : α} {b : β} (hab : R a b) :
    Alike R (r.insert name a) (s.insert name b) := by
  induction h with
  | nil => exact .cons ⟨rfl, hab⟩ .nil
  | @cons entry other r s he h ih =>
      obtain ⟨name', a'⟩ := entry
      obtain ⟨_, b'⟩ := other
      obtain ⟨rfl, hab'⟩ := he
      by_cases hn : name' = name
      · simp only [Named.insert, hn, if_true]
        exact .cons ⟨rfl, hab⟩ h
      · simp only [Named.insert, hn, if_false]
        exact .cons ⟨rfl, hab'⟩ ih

theorem Alike.putAll (h : Alike R r s) {entries : List (String × α)}
    {others : List (String × β)} (he : Alike R entries others) :
    Alike R (r.putAll entries) (s.putAll others) := by
  induction he generalizing r s with
  | nil => exact h
  | @cons entry other entries others hab _ ih =>
      obtain ⟨name, a⟩ := entry
      obtain ⟨_, b⟩ := other
      obtain ⟨rfl, hab⟩ := hab
      exact ih (h.insert name hab)

/-- What is found under a name in the one is related to what is found there in the other. -/
theorem Alike.exists_find? (h : Alike R r s) {name : String} {a : α} (ha : r.find? name = some a) :
    ∃ b, s.find? name = some b ∧ R a b := by
  induction h with
  | nil => cases ha
  | @cons entry other r s he _ ih =>
      obtain ⟨name', a'⟩ := entry
      obtain ⟨_, b'⟩ := other
      obtain ⟨rfl, hab⟩ := he
      rw [find?_cons] at ha ⊢
      by_cases hn : name = name'
      · rw [if_pos hn] at ha ⊢
        cases ha
        exact ⟨b', rfl, hab⟩
      · rw [if_neg hn] at ha ⊢
        exact ih ha

/-- Everything in the other has a related thing under the same name in the one. -/
theorem Alike.exists_mem (h : Alike R r s) {name : String} {b : β} (hb : (name, b) ∈ s) :
    ∃ a, (name, a) ∈ r ∧ R a b := by
  induction h with
  | nil => cases hb
  | @cons entry other r s he _ ih =>
      rcases List.mem_cons.1 hb with rfl | hb
      · obtain ⟨rfl, hab⟩ := he
        exact ⟨entry.2, List.mem_cons_self, hab⟩
      · obtain ⟨a, ha, hab⟩ := ih hb
        exact ⟨a, List.mem_cons_of_mem _ ha, hab⟩

end Warden.Named
