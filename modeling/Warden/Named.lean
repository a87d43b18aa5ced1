/-! # Things under names

**`Named α`** holds things of one type under names, in the order in which the names were first
given. Giving a name again replaces the thing and keeps the place: the name is then answered with
the new thing (`find?_insert_self`) and all others as before (`find?_insert_of_ne`).
-/

namespace Warden

/-- Things under names, in order. -/
abbrev Named (α : Type) := List (String × α)

namespace Named

variable {α : Type}

/-- The thing under a name. -/
def find? (r : Named α) (name : String) : Option α :=
  r.lookup name

/-- Something stands under the name. -/
def has (r : Named α) (name : String) : Bool :=
  r.any fun entry => entry.1 == name

/-- Puts a thing under a name: in the place of the old one, or at the end. -/
def insert : Named α → String → α → Named α
  | [], name, a => [(name, a)]
  | (k, b) :: r, name, a => if k = name then (k, a) :: r else (k, b) :: insert r name a

/-- A thing that was put under a name is found there. -/
theorem find?_insert_self (r : Named α) (name : String) (a : α) :
    (r.insert name a).find? name = some a := by
  induction r with
  | nil => simp [insert, find?]
  | cons entry r ih =>
    obtain ⟨k, b⟩ := entry
    by_cases h : k = name
    · simp [insert, find?, h]
    · have hk : (name == k) = false := by simpa using Ne.symm h
      simpa [insert, find?, List.lookup_cons, h, hk] using ih

/-- Other names keep what stands under them. -/
theorem find?_insert_of_ne (r : Named α) {name other : String} (a : α) (h : other ≠ name) :
    (r.insert name a).find? other = r.find? other := by
  induction r with
  | nil =>
    have ho : (other == name) = false := by simpa using h
    simp [insert, find?, List.lookup_cons, ho]
  | cons entry r ih =>
    obtain ⟨k, b⟩ := entry
    by_cases hk : k = name
    · subst hk
      have ho : (other == k) = false := by simpa using h
      simp [insert, find?, List.lookup_cons, ho]
    · simp only [insert, hk, if_false]
      unfold find? at ih ⊢
      rw [List.lookup_cons, List.lookup_cons, ih]

/-- The things under their names, a later one taking the place of an earlier one of its name. -/
def ofEntries (entries : List (String × α)) : Named α :=
  entries.foldl (fun r entry => r.insert entry.1 entry.2) []

/-- The names, in order. -/
def names (r : Named α) : List String :=
  r.map (·.1)

end Named

end Warden
