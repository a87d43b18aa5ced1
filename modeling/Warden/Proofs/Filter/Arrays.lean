import Warden.Proofs.Filter.Answer

/-! # Conditions on arrays

An operator on arrays asks how the items of a list relate to those of the condition's value, or for
their number (**`Operator.AsksOf`**). Lists are judged by this. But texts have a size and parts, and
records have a size and names, so a text or a record in the place of a list is judged as well, and
only the other single values leave a condition unknown (**`array_condition_judged`**). A search goes
through the operands in order. It breaks off at the first one that the value cannot be asked for
(**`Value.containsAll_eq_error`**, **`Value.containsAny_eq_error`**), and where it does not, its
answer is right. -/

namespace Warden

namespace Value

variable {actual container e v : Value} {es items : List Value} {b : Bool} {d : Defect}

/-- What a value is taken to consist of: the items of a list, the names of a record or the
characters of a text. -/
def members (v : Value) : List Value :=
  match v.elements with
  | .ok items => items
  | .error _ => []

/-- The value is found in the container: as the name of an entry, as a part of a text, or as equal
to an item. -/
def Finds (container e : Value) : Prop :=
  match container with
  | .record entries => ∃ entry ∈ entries, e = .text entry.1
  | .text s => ∃ t, e = .text t ∧ t.toList <:+: s.toList
  | container => ∃ item ∈ container.members, e.same item = true

/-- A list, a record or a text. -/
def isCollection (v : Value) : Bool :=
  v.items?.isSome || v.record?.isSome || v.isText

theorem members_of_items? (hv : v.items? = some es) : v.members = es := by
  rw [members, elements_of_items? hv]

/-! ## Searching for one value -/

/-- A search among items that has an answer has the right one. -/
theorem isAmong_right (h : e.isAmong items = .ok b) :
    b = true ↔ ∃ item ∈ items, e.same item = true := by
  induction items with
  | nil =>
      cases h
      simp
  | cons item items ih =>
      obtain ⟨found, hfound, h⟩ := Outcome.bind_eq_ok.1 h
      have hsame : found = e.same item := by
        unfold equals at hfound
        split at hfound
        · cases hfound
        · exact (Except.ok.inj hfound).symm
      rw [List.exists_mem_cons_iff, ← hsame]
      cases found with
      | true =>
          cases h
          simp
      | false => simpa using ih h

/-- Nothing but a text is a name. -/
theorem contains_record {entries : List (String × Value)} (he : e.isText = false) :
    (record entries).contains e = if e.hashable then .ok false else .error .wrongKind := by
  cases e with
  | text => cases he
  | _ => rfl

/-- So has a search in a list, a record or a text. -/
theorem contains_right (hc : container.isCollection = true) (h : container.contains e = .ok b) :
    b = true ↔ container.Finds e := by
  cases container with
  | list items | tuple items => exact isAmong_right h
  | record entries =>
      cases e with
      | text s =>
          cases h
          simp only [Finds, List.any_eq_true, beq_iff_eq, text.injEq, @eq_comm _ s]
      | _ =>
          rw [contains_record rfl] at h
          split at h
          · cases h
            simp [Finds]
          · cases h
  | text s =>
      cases e with
      | text t =>
          cases h
          simp [Finds, Text.occursIn_iff_infix]
      | _ => cases h
  | _ => cases hc

/-- A search among items stumbles over numbers that may not be compared only, and only for a
number. -/
theorem signals_of_isAmong (h : e.isAmong items = .error d) : e.number?.isSome = true ∧
    (e.signals = true ∨ ∃ item ∈ items, item.signals = true) := by
  induction items with
  | nil => cases h
  | cons item items ih =>
      rw [isAmong] at h
      unfold equals at h
      split at h
      case isTrue hsignals =>
        rw [Bool.or_eq_true, Bool.and_eq_true, Bool.and_eq_true] at hsignals
        rcases hsignals with ⟨he, -⟩ | ⟨hitem, hnumber⟩
        · refine ⟨?_, .inl he⟩
          cases e with
          | decimal => rfl
          | _ => cases he
        · exact ⟨hnumber, .inr ⟨item, List.mem_cons_self, hitem⟩⟩
      case isFalse =>
        cases hsame : e.same item with
        | true =>
            rw [hsame] at h
            cases h
        | false =>
            rw [hsame] at h
            obtain ⟨hnumber, hsignals | ⟨a, ha, hsignals⟩⟩ := ih h
            · exact ⟨hnumber, .inl hsignals⟩
            · exact ⟨hnumber, .inr ⟨a, List.mem_cons_of_mem item ha, hsignals⟩⟩

/-- A search among names stumbles over such a number if that is searched for. -/
theorem signals_of_contains_record {entries : List (String × Value)} (he : e.isScalar = true)
    (h : (record entries).contains e = .error d) : e.signals = true := by
  cases e with
  | decimal x =>
      cases x with
      | nan negative signalling payload =>
          cases signalling with
          | true => rfl
          | false => cases h
      | _ => cases h
  | null | bytes | list | tuple | set | record => cases he
  | _ => cases h

/-- In a text only texts can be searched for. -/
theorem contains_text_eq_error (s : String) : (text s).contains e = .error d ↔
    e.isText = false ∧ d = .wrongKind := by
  cases e with
  | text t => exact iff_of_false (nomatch ·) (nomatch ·.1)
  | _ => exact ⟨fun h => ⟨rfl, (Except.error.inj h).symm⟩, fun h => congrArg Except.error h.2.symm⟩

theorem contains_text_eq_ok (s : String) : (text s).contains e = .ok b ↔
    e.isText = true ∧ ((text s).Finds e ↔ b = true) := by
  cases e with
  | text t =>
      have hfinds : (text s).Finds (.text t) ↔ Text.occursIn t.toList s.toList = true := by
        simp [Finds, Text.occursIn_iff_infix]
      rw [hfinds, ← Bool.eq_iff_iff]
      exact ⟨fun h => ⟨rfl, Except.ok.inj h⟩, fun h => congrArg Except.ok h.2⟩
  | _ => exact iff_of_false (nomatch ·) (nomatch ·.1)

/-! ## Searching for several -/

/-- An answer on several values is right if those on each of them are. -/
theorem containsAll_right (hc : container.isCollection = true)
    (h : container.containsAll es = .ok b) : b = true ↔ ∀ e ∈ es, container.Finds e := by
  induction es with
  | nil =>
      cases h
      simp
  | cons e es ih =>
      obtain ⟨found, hfound, h⟩ := Outcome.bind_eq_ok.1 h
      rw [List.forall_mem_cons, ← contains_right hc hfound]
      cases found with
      | true => simpa using ih h
      | false =>
          cases h
          simp

theorem containsAny_right (hc : container.isCollection = true)
    (h : container.containsAny es = .ok b) : b = true ↔ ∃ e ∈ es, container.Finds e := by
  induction es with
  | nil =>
      cases h
      simp
  | cons e es ih =>
      obtain ⟨found, hfound, h⟩ := Outcome.bind_eq_ok.1 h
      rw [List.exists_mem_cons_iff, ← contains_right hc hfound]
      cases found with
      | true =>
          cases h
          simp
      | false => simpa using ih h

/-- A search in order that goes on while it is answered in one way breaks off at the first value
that cannot be searched for, if it gets there. -/
theorem search_eq_error {search : List Value → Except Defect Bool} {go : Bool}
    (hnil : search [] = .ok go)
    (hcons : ∀ e es, search (e :: es) =
      container.contains e >>= fun found => if found = go then search es else .ok (!go)) :
    search es = .error d ↔ ∃ before e after, es = before ++ e :: after ∧
      container.contains e = .error d ∧ ∀ t ∈ before, container.contains t = .ok go := by
  induction es with
  | nil => simp [hnil]
  | cons e es ih =>
      rw [hcons]
      constructor
      · intro h
        cases hfound : container.contains e with
        | error d' =>
            rw [hfound] at h
            cases h
            exact ⟨[], e, es, rfl, hfound, List.forall_mem_nil _⟩
        | ok found =>
            rw [hfound] at h
            replace h : (if found = go then search es else .ok (!go)) = .error d := h
            split at h
            case isTrue hgo =>
              obtain ⟨before, e', after, rfl, herror, hbefore⟩ := ih.1 h
              exact ⟨e :: before, e', after, rfl, herror,
                List.forall_mem_cons.2 ⟨hgo ▸ hfound, hbefore⟩⟩
            case isFalse => cases h
      · rintro ⟨before, e', after, hes, herror, hbefore⟩
        cases before with
        | nil =>
            cases hes
            rw [herror]
            rfl
        | cons t before =>
            cases hes
            obtain ⟨ht, hbefore⟩ := List.forall_mem_cons.1 hbefore
            rw [ht]
            exact (if_pos rfl).trans (ih.2 ⟨before, e', after, rfl, herror, hbefore⟩)

/-- **A search for all breaks off at a value that cannot be searched for, if all before it are
found.** -/
theorem containsAll_eq_error : container.containsAll es = .error d ↔
    ∃ before e after, es = before ++ e :: after ∧ container.contains e = .error d ∧
      ∀ t ∈ before, container.contains t = .ok true :=
  search_eq_error rfl fun _ _ => rfl

/-- **A search for any breaks off at a value that cannot be searched for, if none before it is
found.** -/
theorem containsAny_eq_error : container.containsAny es = .error d ↔
    ∃ before e after, es = before ++ e :: after ∧ container.contains e = .error d ∧
      ∀ t ∈ before, container.contains t = .ok false := by
  refine search_eq_error rfl fun e es => ?_
  rw [containsAny]
  refine congrArg (container.contains e >>= ·) (funext fun found => ?_)
  cases found <;> rfl

/-! ## Values with members and without -/

theorem contains_of_items? (hv : v.items? = some es) : v.contains e = e.isAmong es := by
  cases v with
  | list | tuple =>
      cases hv
      rfl
  | _ => cases hv

theorem isCollection_of_items? (hv : v.items? = some es) : v.isCollection = true := by
  rw [isCollection, hv]
  rfl

theorem isNull_of_isCollection (hc : actual.isCollection = true) : actual.isNull = false := by
  cases actual with
  | null => cases hc
  | _ => rfl

theorem elements_of_isCollection (hc : actual.isCollection = true) :
    actual.elements = .ok actual.members := by
  cases actual with
  | list | tuple | record | text => rfl
  | _ => cases hc

theorem size_of_isCollection (hc : actual.isCollection = true) :
    actual.size = .ok actual.members.length := by
  cases actual with
  | list | tuple => rfl
  | record | text => simp [size, members, elements, String.length_toList]
  | _ => cases hc

theorem isEmptyValue_of_isCollection (hc : actual.isCollection = true) :
    actual.isEmptyValue = .ok actual.members.isEmpty := by
  have hempty : actual.isEmptyValue = actual.size >>= fun n => .ok (n == 0) := by
    cases actual with
    | null => cases hc
    | _ => rfl
  rw [hempty, size_of_isCollection hc]
  cases actual.members <;> rfl

/-- Other single values than texts have no members, no size, and cannot be searched. -/
theorem members_of_single (hs : actual.isScalar = true) (ht : actual.isText = false) :
    actual.elements = .error .wrongKind ∧ actual.isEmptyValue = .error .wrongKind ∧
      actual.size = .error .wrongKind ∧ ∀ e, actual.contains e = .error .wrongKind := by
  cases actual with
  | null | bytes | list | tuple | set | record => cases hs
  | text => cases ht
  | _ => exact ⟨rfl, rfl, rfl, fun _ => rfl⟩

end Value

/-! ## Operators -/

namespace Operator

variable {op : Operator} {actual v : Value} {b : Bool} {d : Defect}

/-- What an operator on arrays asks of a value: that all operands are found in it, that one of them
is, that its members are found among the operands, that it has so many members, or that it has none,
or some. -/
def AsksOf (op : Operator) (actual v : Value) : Prop :=
  match op with
  | .arrayContains => ∀ e ∈ v.members, actual.Finds e
  | .arrayContainsAny => ∃ e ∈ v.members, actual.Finds e
  | .arrayContained => ∀ a ∈ actual.members, v.Finds a
  | .arrayLength => v = .int actual.members.length
  | .arrayEmpty => v = .bool actual.members.isEmpty
  | _ => False

/-- A value of the shape that searches demand lists single values. -/
theorem exists_operands (h : Shape.scalarList.accepts v = .ok true) :
    ∃ es, v.items? = some es ∧ ∀ e ∈ es, e.isScalar = true := by
  rw [Shape.accepts, Except.ok.injEq] at h
  split at h
  case h_1 es hes => exact ⟨es, hes, List.all_eq_true.1 h⟩
  case h_2 => cases h

/-- All that an operator on arrays has as operands are single values. -/
theorem isScalar_of_mem_members (hop : op.families = [.array])
    (hv : op.shape.accepts v = .ok true) {e : Value} (he : e ∈ v.members) : e.isScalar = true := by
  cases op with
  | arrayContains | arrayContainsAny | arrayContained =>
      obtain ⟨es, hes, hscalars⟩ := exists_operands hv
      rw [Value.members_of_items? hes] at he
      exact hscalars e he
  | arrayLength =>
      cases v with
      | int => cases he
      | _ => cases hv
  | arrayEmpty =>
      cases v with
      | bool => cases he
      | _ => cases hv
  | _ => cases hop

/-- A value that is present is searched for the operands in order. -/
theorem test_arrayContains (hpresent : actual.isNull = false)
    (hv : Shape.scalarList.accepts v = .ok true) :
    arrayContains.test actual v = actual.containsAll v.members := by
  obtain ⟨es, hes, -⟩ := exists_operands hv
  rw [test_of_present hpresent (by decide), testPresent, Value.elements_of_items? hes,
    Value.members_of_items? hes]
  rfl

theorem test_arrayContainsAny (hpresent : actual.isNull = false)
    (hv : Shape.scalarList.accepts v = .ok true) :
    arrayContainsAny.test actual v = actual.containsAny v.members := by
  obtain ⟨es, hes, -⟩ := exists_operands hv
  rw [test_of_present hpresent (by decide), testPresent, Value.elements_of_items? hes,
    Value.members_of_items? hes]
  rfl

/-- The operands are searched for the members of a value in order. -/
theorem test_arrayContained (hc : actual.isCollection = true) :
    arrayContained.test actual v = v.containsAll actual.members := by
  rw [test_of_present (Value.isNull_of_isCollection hc) (by decide), testPresent,
    Value.elements_of_isCollection hc]
  rfl

/-- The size of a value is compared with a whole number, which always has a result. -/
theorem test_arrayLength (hc : actual.isCollection = true) (n : Int) :
    arrayLength.test actual (.int n) = .ok (decide ((actual.members.length : Int) = n)) := by
  rw [test_of_present (Value.isNull_of_isCollection hc) (by decide), testPresent,
    Value.size_of_isCollection hc]
  exact (Value.comparesAs_of_isWhole (Value.isWhole_int _) (Value.isWhole_int n)).equals

/-- **An array operator that has an answer has the right one.** -/
theorem test_right (hop : op.families = [.array]) (hv : op.shape.accepts v = .ok true)
    (hc : actual.isCollection = true) (h : op.test actual v = .ok b) :
    b = true ↔ op.AsksOf actual v := by
  have hpresent : actual.isNull = false := Value.isNull_of_isCollection hc
  cases op with
  | arrayContains =>
      rw [test_arrayContains hpresent hv] at h
      exact Value.containsAll_right hc h
  | arrayContainsAny =>
      rw [test_arrayContainsAny hpresent hv] at h
      exact Value.containsAny_right hc h
  | arrayContained =>
      obtain ⟨es, hes, -⟩ := exists_operands hv
      rw [test_arrayContained hc] at h
      exact Value.containsAll_right (Value.isCollection_of_items? hes) h
  | arrayLength =>
      cases v with
      | int n =>
          rw [test_arrayLength hc, Except.ok.injEq] at h
          rw [← h, decide_eq_true_eq, AsksOf, Value.int.injEq, eq_comm]
      | _ => cases hv
  | arrayEmpty =>
      rw [test, Value.isEmptyValue_of_isCollection hc] at h
      cases v with
      | bool c =>
          have hsame : b = (actual.members.isEmpty == c) := (Except.ok.inj h).symm
          rw [hsame, beq_iff_eq, AsksOf, Value.bool.injEq, eq_comm]
      | _ => cases hv
  | _ => cases hop

/-- **An array operator breaks off only with its search.** -/
theorem test_eq_error_iff (hop : op.families = [.array]) (hv : op.shape.accepts v = .ok true)
    (hc : actual.isCollection = true) : op.test actual v = .error d ↔
      op = .arrayContains ∧ actual.containsAll v.members = .error d ∨
      op = .arrayContainsAny ∧ actual.containsAny v.members = .error d ∨
      op = .arrayContained ∧ v.containsAll actual.members = .error d := by
  have hpresent : actual.isNull = false := Value.isNull_of_isCollection hc
  cases op with
  | arrayContains =>
      rw [test_arrayContains hpresent hv]
      simp
  | arrayContainsAny =>
      rw [test_arrayContainsAny hpresent hv]
      simp
  | arrayContained =>
      rw [test_arrayContained hc]
      simp
  | arrayLength =>
      cases v with
      | int n =>
          rw [test_arrayLength hc]
          simp
      | _ => cases hv
  | arrayEmpty =>
      rw [test, Value.isEmptyValue_of_isCollection hc]
      simp [bind, Except.bind, pure, Except.pure]
  | _ => cases hop

/-- What it cannot search for is an operand or a member. -/
theorem exists_of_test_eq_error (hop : op.families = [.array])
    (hv : op.shape.accepts v = .ok true) (hc : actual.isCollection = true)
    (h : op.test actual v = .error d) :
    (∃ e ∈ v.members, actual.contains e = .error d) ∨
      op = .arrayContained ∧ ∃ a ∈ actual.members, v.contains a = .error d := by
  rcases (test_eq_error_iff hop hv hc).1 h with ⟨-, h⟩ | ⟨-, h⟩ | ⟨hop, h⟩
  · obtain ⟨before, e, after, hes, he, -⟩ := Value.containsAll_eq_error.1 h
    exact .inl ⟨e, by simp [hes], he⟩
  · obtain ⟨before, e, after, hes, he, -⟩ := Value.containsAny_eq_error.1 h
    exact .inl ⟨e, by simp [hes], he⟩
  · obtain ⟨before, a, after, has, ha, -⟩ := Value.containsAll_eq_error.1 h
    exact .inr ⟨hop, a, by simp [has], ha⟩

/-- Among operands a text can always be searched for. -/
theorem contains_ne_error_of_isText (hv : Shape.scalarList.accepts v = .ok true) {a : Value}
    (ha : a.isText = true) : v.contains a ≠ .error d := by
  intro h
  obtain ⟨es, hes, -⟩ := exists_operands hv
  rw [Value.contains_of_items? hes] at h
  obtain ⟨hnumber, -⟩ := Value.signals_of_isAmong h
  cases a with
  | text => cases hnumber
  | _ => cases ha

/-- Lists without numbers that may not be compared always have an answer. -/
theorem test_list_ne_error (hop : op.families = [.array]) (hv : op.shape.accepts v = .ok true)
    {items : List Value} (hquiet : ∀ a ∈ items ++ v.members, a.signals = false) :
    op.test (.list items) v ≠ .error d := by
  intro h
  rw [List.forall_mem_append] at hquiet
  obtain ⟨hitems, hoperands⟩ := hquiet
  rcases exists_of_test_eq_error hop hv rfl h with ⟨e, he, h⟩ | ⟨rfl, a, ha, h⟩
  · rcases (Value.signals_of_isAmong h).2 with hsignals | ⟨item, hitem, hsignals⟩
    · exact absurd hsignals (by simp [hoperands e he])
    · exact absurd hsignals (by simp [hitems item hitem])
  · obtain ⟨es, hes, -⟩ := exists_operands hv
    rw [Value.contains_of_items? hes] at h
    rw [Value.members_of_items? hes] at hoperands
    rcases (Value.signals_of_isAmong h).2 with hsignals | ⟨e, he, hsignals⟩
    · exact absurd hsignals (by simp [hitems a ha])
    · exact absurd hsignals (by simp [hoperands e he])

/-- So have records, whose members are their names. -/
theorem test_record_ne_error (hop : op.families = [.array]) (hv : op.shape.accepts v = .ok true)
    {entries : List (String × Value)} (hquiet : ∀ e ∈ v.members, e.signals = false) :
    op.test (.record entries) v ≠ .error d := by
  intro h
  rcases exists_of_test_eq_error hop hv rfl h with ⟨e, he, h⟩ | ⟨rfl, a, ha, h⟩
  · have hsignals := Value.signals_of_contains_record (isScalar_of_mem_members hop hv he) h
    rw [hquiet e he] at hsignals
    cases hsignals
  · obtain ⟨entry, -, rfl⟩ := List.mem_map.1 ha
    exact contains_ne_error_of_isText hv rfl h

/-- A search in a text gets to an operand that is no text: those before it are all found, or none of
them is, as far as the operator needs. -/
def Strays (op : Operator) (v : Value) (s : String) : Prop :=
  (op = .arrayContains ∨ op = .arrayContainsAny) ∧
    ∃ before e after, v.members = before ++ e :: after ∧ e.isText = false ∧
      ∀ t ∈ before, t.isText = true ∧ ((Value.text s).Finds t ↔ op = .arrayContains)

/-- That is where an operator on arrays breaks off on a text. -/
theorem test_text_eq_error_iff (hop : op.families = [.array]) (hv : op.shape.accepts v = .ok true)
    (s : String) : (∃ d, op.test (.text s) v = .error d) ↔ op.Strays v s := by
  have hc : (Value.text s).isCollection = true := rfl
  constructor
  · rintro ⟨d, h⟩
    rcases (test_eq_error_iff hop hv hc).1 h with ⟨rfl, hall⟩ | ⟨rfl, hany⟩ | ⟨rfl, hall⟩
    · obtain ⟨before, e, after, hes, he, hbefore⟩ := Value.containsAll_eq_error.1 hall
      refine ⟨.inl rfl, before, e, after, hes, ((Value.contains_text_eq_error s).1 he).1, ?_⟩
      intro t ht
      simpa using (Value.contains_text_eq_ok s).1 (hbefore t ht)
    · obtain ⟨before, e, after, hes, he, hbefore⟩ := Value.containsAny_eq_error.1 hany
      refine ⟨.inr rfl, before, e, after, hes, ((Value.contains_text_eq_error s).1 he).1, ?_⟩
      intro t ht
      simpa using (Value.contains_text_eq_ok s).1 (hbefore t ht)
    · -- the characters of the text can be searched for
      obtain ⟨before, a, after, has, ha, -⟩ := Value.containsAll_eq_error.1 hall
      have hmem : a ∈ (Value.text s).members := has ▸ by simp
      obtain ⟨c, -, rfl⟩ := List.mem_map.1 hmem
      exact absurd ha (contains_ne_error_of_isText hv rfl)
  · rintro ⟨hsearch, before, e, after, hes, he, hbefore⟩
    refine ⟨.wrongKind, (test_eq_error_iff hop hv hc).2 ?_⟩
    have herror := (Value.contains_text_eq_error s).2 ⟨he, rfl⟩
    rcases hsearch with rfl | rfl
    · refine .inl ⟨rfl, Value.containsAll_eq_error.2 ⟨before, e, after, hes, herror, ?_⟩⟩
      intro t ht
      exact (Value.contains_text_eq_ok s).2 (by simpa using hbefore t ht)
    · refine .inr (.inl ⟨rfl, Value.containsAny_eq_error.2 ⟨before, e, after, hes, herror, ?_⟩⟩)
      intro t ht
      exact (Value.contains_text_eq_ok s).2 (by simpa using hbefore t ht)

/-- On values without members an operator on arrays breaks off, unless it searches for nothing. -/
theorem test_single (hop : op.families = [.array]) (hv : op.shape.accepts v = .ok true)
    (hs : actual.isScalar = true) (ht : actual.isText = false) :
    ((op = .arrayContains ∨ op = .arrayContainsAny) ∧ v.members = [] →
      op.test actual v = .ok (decide (op = .arrayContains))) ∧
    (¬ ((op = .arrayContains ∨ op = .arrayContainsAny) ∧ v.members = []) →
      op.test actual v = .error .wrongKind) := by
  obtain ⟨helements, hempty, hsize, hcontains⟩ := Value.members_of_single hs ht
  have hpresent : actual.isNull = false := (Value.isAtom_of_isScalar hs).2
  cases op with
  | arrayContains =>
      rw [test_arrayContains hpresent hv]
      cases v.members with
      | nil => simp [Value.containsAll]
      | cons => simp [bind, Except.bind, Value.containsAll, hcontains]
  | arrayContainsAny =>
      rw [test_arrayContainsAny hpresent hv]
      cases v.members with
      | nil => simp [Value.containsAny]
      | cons => simp [bind, Except.bind, Value.containsAny, hcontains]
  | arrayContained =>
      rw [test_of_present hpresent (by decide), testPresent, helements]
      simp [bind, Except.bind]
  | arrayLength =>
      rw [test_of_present hpresent (by decide), testPresent, hsize]
      simp [bind, Except.bind]
  | arrayEmpty =>
      rw [test, hempty]
      simp [bind, Except.bind]
  | _ => cases hop

end Operator

/-! ## Conditions -/

namespace Condition

variable {c : Condition} {record : Record}

/-- The condition is decided, and holds as its operator on arrays asks. -/
def Judged (c : Condition) (record : Record) : Prop :=
  ∃ b, c.evaluate record = .ok (.ofBool b) ∧
    (b = true ↔ c.operator.AsksOf (record.get c.field) c.value)

/-- Operators on arrays decide conditions on fields of the record. -/
theorem evaluate_of_families (hop : c.operator.families = [.array])
    (hfield : Text.hasChar '.' c.field = false) : c.evaluate record =
      match c.operator.test (record.get c.field) c.value with
      | .ok b => .ok (.ofBool b)
      | .error d => if d.undecided then .ok .unknown else .error d := by
  have hdecidable : c.operator.undecidable = false := by
    obtain ⟨field, op, v, cast⟩ := c
    cases op with
    | arrayContains | arrayContainsAny | arrayContained | arrayLength | arrayEmpty => rfl
    | _ => cases hop
  rw [evaluate, hfield, hdecidable]
  rfl

variable (hop : c.operator.families = [.array])
  (hv : c.operator.shape.accepts c.value = .ok true)
  (hfield : Text.hasChar '.' c.field = false)
include hop hv hfield

/-- A condition whose test breaks off is unknown. -/
theorem unknown_of_test {d : Defect}
    (h : c.operator.test (record.get c.field) c.value = .error d) :
    c.evaluate record = .ok .unknown := by
  have hdeep : c.operator.Fathoms c.value := by
    intro hregex
    rw [hregex] at hop
    cases hop
  rw [evaluate_of_families hop hfield, h]
  exact if_pos (Operator.settles_test _ hv (fun _ => hdeep) d h)

/-- Where the test does not break off, a list, a record or a text is judged. -/
theorem judged_of_test (hc : (record.get c.field).isCollection = true)
    (h : ∀ d, c.operator.test (record.get c.field) c.value ≠ .error d) : c.Judged record := by
  cases htest : c.operator.test (record.get c.field) c.value with
  | error d => exact absurd htest (h d)
  | ok b =>
      refine ⟨b, ?_, Operator.test_right hop hv hc htest⟩
      rw [evaluate_of_families hop hfield, htest]

end Condition

/-- **Array conditions on values of every kind.** Take a condition whose operator is for arrays only
and whose value passes the check of the operator. On a path through relations it is unknown. On a
field of the record:

* A list is judged as the operator asks: whether its items include all of the operands or one of
  them, whether the operands include all of its items, or how many items there are. Numbers that may
  not be compared are left aside.
* A truth value, a number, a date, a time or an identifier leaves the condition unknown, unless it
  searches for the members of an empty list: all of none are found, and none is.
* A record is judged as if it were the list of its names.
* A text is judged as if it were the list of its characters, and any part of it is found in it. It
  leaves the condition unknown only if it is searched for an operand that is no text. -/
theorem array_condition_judged (c : Condition) (record : Record)
    (hop : c.operator.families = [.array])
    (hvalue : c.operator.checkValue c.value c.field = .ok ()) :
    (Text.hasChar '.' c.field = true → c.evaluate record = .ok .unknown) ∧
    (Text.hasChar '.' c.field = false →
      (∀ items, record.get c.field = .list items →
        (∀ a ∈ items ++ c.value.members, a.signals = false) → c.Judged record) ∧
      ((record.get c.field).isScalar = true → (record.get c.field).isText = false →
        ((c.operator = .arrayContains ∨ c.operator = .arrayContainsAny) ∧ c.value.members = [] →
          c.evaluate record = .ok (.ofBool (c.operator = .arrayContains))) ∧
        (¬ ((c.operator = .arrayContains ∨ c.operator = .arrayContainsAny) ∧
            c.value.members = []) → c.evaluate record = .ok .unknown)) ∧
      (∀ entries, record.get c.field = .record entries →
        (∀ e ∈ c.value.members, e.signals = false) → c.Judged record) ∧
      ∀ s, record.get c.field = .text s →
        (c.operator.Strays c.value s → c.evaluate record = .ok .unknown) ∧
        (¬ c.operator.Strays c.value s → c.Judged record)) := by
  have hv := Operator.accepts_of_checkValue hvalue
  refine ⟨fun hfield => ?_, fun hfield => ⟨?_, ?_, ?_, ?_⟩⟩
  · rw [Condition.evaluate, hfield]
    rfl
  · intro items hitems hquiet
    refine Condition.judged_of_test hop hv hfield (by rw [hitems]; rfl) fun d => ?_
    rw [hitems]
    exact Operator.test_list_ne_error hop hv hquiet
  · intro hs ht
    obtain ⟨hnothing, hsearch⟩ := Operator.test_single hop hv hs ht
    refine ⟨fun h => ?_, fun h => Condition.unknown_of_test hop hv hfield (hsearch h)⟩
    rw [Condition.evaluate_of_families hop hfield, hnothing h]
  · intro entries hentries hquiet
    refine Condition.judged_of_test hop hv hfield (by rw [hentries]; rfl) fun d => ?_
    rw [hentries]
    exact Operator.test_record_ne_error hop hv hquiet
  · intro s hs
    rw [← Operator.test_text_eq_error_iff hop hv s]
    constructor
    · rintro ⟨d, h⟩
      rw [← hs] at h
      exact Condition.unknown_of_test hop hv hfield h
    · intro h
      refine Condition.judged_of_test hop hv hfield (by rw [hs]; rfl) fun d htest => ?_
      rw [hs] at htest
      exact h ⟨d, htest⟩

namespace Sample

/-- The condition that a tag is among those of a post. -/
def taggedA : Condition :=
  ⟨"tags", .arrayContains, .list [.text "a"], none⟩

/-- A post with tags of some kind. -/
def withTags (v : Value) : Record :=
  [("tags", v)]

end Sample

/-- Two tags are judged by whether the one asked for is among them, and a number is unknown. -/
theorem array_condition_judged_taggedA :
    Sample.taggedA.operator.families = [.array] ∧
    Sample.taggedA.operator.checkValue Sample.taggedA.value Sample.taggedA.field = .ok () ∧
    Sample.taggedA.Judged (Sample.withTags (.list [.text "a", .text "b"])) ∧
    Sample.taggedA.evaluate (Sample.withTags (.int 5)) = .ok .unknown := by
  have hop : Sample.taggedA.operator.families = [.array] := rfl
  have hvalue : Sample.taggedA.operator.checkValue Sample.taggedA.value Sample.taggedA.field =
      .ok () := rfl
  have hfield : Text.hasChar '.' Sample.taggedA.field = false := by rfl
  refine ⟨hop, hvalue, ?_, ?_⟩
  · refine ((array_condition_judged _ _ hop hvalue).2 hfield).1 _ rfl ?_
    simp [Sample.taggedA, Value.members, Value.elements, Value.signals]
  · refine (((array_condition_judged _ _ hop hvalue).2 hfield).2.1 rfl rfl).2 ?_
    simp [Sample.taggedA, Value.members, Value.elements]

/-- A text counts as a list of tags: it has the tag as a part of it, and is not empty. A number
counts as one that has all of no tags. -/
theorem text_admitted_for_array :
    (∀ c ∈ [Sample.taggedA, ⟨"tags", .arrayEmpty, .bool false, none⟩],
      c.operator.families = [.array] ∧ c.operator.checkValue c.value c.field = .ok () ∧
      (Filter.leaf c).admits (Sample.withTags (.text "abc")) = .ok true) ∧
    Operator.arrayContains.checkValue (.list []) "tags" = .ok () ∧
    Condition.evaluate ⟨"tags", .arrayContains, .list [], none⟩ (Sample.withTags (.int 5)) =
      .ok .holds := by
  refine ⟨?_, rfl, by rfl⟩
  exact List.forall_mem_cons.2 ⟨⟨rfl, rfl, by rfl⟩,
    List.forall_mem_singleton.2 ⟨rfl, rfl, by rfl⟩⟩

end Warden
