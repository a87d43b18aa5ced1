import Warden.Proofs.Filter.Completion
import Warden.Proofs.Filter.Containment
import Warden.Proofs.Filter.Meaning
import Warden.Proofs.Filter.Sides
import Warden.Proofs.Pattern.Nesting
import Warden.Proofs.Query.Validity

/-! # Which valid filters have an answer

A condition is unknown where its values cannot be compared, so it may break off in many ways without
harm (**`Settles`**). Nearly everything that a comparison is made of settles whatever it is given:
equality, order, membership, size and the comparison of texts. A range asks for two bounds, and has
them if its value has the operator's shape. A pattern settles unless it is nested too deep
(`Pattern.settles_search`), which no check of its value looks at (**`Condition.Overtaxes`**).

So a filter of checked conditions has an answer on every record unless such a pattern breaks it off,
and the same is true of every filter that was read and whose variables were replaced
(**`evaluation_answers_unless_too_deep`**). How deep filters and values may be nested has no limit
here. -/

namespace Warden

/-! ## Breaking off without harm -/

variable {α β : Type}

/-- There is a result, or the computation breaks off in a way that leaves a condition unknown. -/
def Settles (x : Except Defect α) : Prop :=
  ∀ d, x = .error d → d.undecided = true

theorem settles_ok (a : α) : Settles (.ok a) :=
  fun _ h => nomatch h

theorem settles_error {d : Defect} (h : d.undecided = true) :
    Settles (.error d : Except Defect α) := by
  rintro _ ⟨⟩
  exact h

theorem Settles.bind {x : Except Defect α} {f : α → Except Defect β} (hx : Settles x)
    (hf : ∀ a, Settles (f a)) : Settles (x >>= f) := by
  intro d h
  cases x with
  | ok a => exact hf a d h
  | error e =>
      cases h
      exact hx d rfl

theorem settles_anyM {p : α → Except Defect Bool} {as : List α} (h : ∀ a ∈ as, Settles (p a)) :
    Settles (as.anyM p) := by
  induction as with
  | nil => exact settles_ok _
  | cons a as ih =>
      rw [List.anyM]
      refine (h a List.mem_cons_self).bind fun b => ?_
      cases b with
      | true => exact settles_ok _
      | false => exact ih fun a ha => h a (List.mem_cons_of_mem _ ha)

theorem Settles.ite {b : Prop} [Decidable b] {x y : Except Defect α} (hx : Settles x)
    (hy : Settles y) : Settles (if b then x else y) := by
  split
  · exact hx
  · exact hy

/-! ## Comparisons -/

namespace Value

theorem settles_equals (a b : Value) : Settles (a.equals b) :=
  .ite (settles_error rfl) (settles_ok _)

theorem settles_align (a b : Value) : Settles (a.align b) :=
  fun _ h => undecided_of_align h

theorem settles_matchesValue (a b : Value) : Settles (a.matchesValue b) := by
  unfold matchesValue
  split
  · exact settles_ok _
  · exact (settles_align a b).bind fun _ => settles_equals _ _

theorem settles_matchesOne (a : Value) (es : List Value) : Settles (a.matchesOne es) := by
  induction es with
  | nil => exact settles_ok _
  | cons e es ih =>
      rw [matchesOne]
      exact (settles_matchesValue a e).bind fun _ => .ite (settles_ok _) ih

theorem settles_compareNumbers (a b : Value) (x y : Extended) :
    Settles (compareNumbers a b x y) := by
  unfold compareNumbers
  split
  · exact settles_ok _
  · exact .ite (settles_error rfl) (settles_ok _)

theorem settles_compareScalars (a b : Value) : Settles (compareScalars a b) := by
  unfold compareScalars
  split
  · exact settles_compareNumbers _ _ _ _
  · split
    case h_3 =>
      -- times of which only one has an offset
      split
      · exact settles_ok _
      · exact settles_error rfl
    case h_7 => exact settles_error rfl
    all_goals exact settles_ok _

mutual

theorem settles_compare (a b : Value) : Settles (a.compare b) := by
  unfold compare
  split
  · exact settles_compareItems _ _
  · exact settles_compareItems _ _
  · split <;> exact settles_ok _
  · exact settles_compareScalars _ _

theorem settles_compareItems (as bs : List Value) : Settles (compareItems as bs) := by
  unfold compareItems
  split
  case h_4 =>
    split
    · exact settles_compareItems _ _
    · exact settles_compare _ _
  all_goals exact settles_ok _

end

theorem settles_isOrderedAs (orders : List Ordering) (a e : Value) :
    Settles (isOrderedAs orders a e) := by
  refine (settles_align a e).bind fun _ => (settles_compare _ _).bind fun o => ?_
  cases o <;> exact settles_ok _

theorem settles_isWithin (low a high : Value) : Settles (isWithin low a high) := by
  refine (settles_compare low a).bind fun o => ?_
  split
  case h_3 => exact settles_ok _
  all_goals
    refine (settles_compare a high).bind fun o => ?_
    split <;> exact settles_ok _

/-- Two bounds are all that a range asks for. -/
theorem settles_isBetween (a : Value) {v low high : Value} (hv : v.items? = some [low, high]) :
    Settles (a.isBetween v) := by
  rw [isBetween_of_items? hv]
  exact (settles_align a low).bind fun _ => (settles_align a high).bind fun _ =>
    settles_isWithin _ _ _

/-! ## Members and sizes -/

theorem settles_size (v : Value) : Settles v.size := by
  cases v with
  | text | bytes | list | tuple | set | record => exact settles_ok _
  | _ => exact settles_error rfl

theorem settles_elements (v : Value) : Settles v.elements := by
  cases v with
  | text | bytes | list | tuple | set | record => exact settles_ok _
  | _ => exact settles_error rfl

theorem settles_isEmptyValue (v : Value) : Settles v.isEmptyValue := by
  cases v with
  | null => exact settles_ok _
  | _ => exact (settles_size _).bind fun _ => settles_ok _

theorem settles_isAmong (v : Value) (items : List Value) : Settles (v.isAmong items) := by
  induction items with
  | nil => exact settles_ok _
  | cons item items ih =>
      rw [isAmong]
      exact (settles_equals v item).bind fun _ => .ite (settles_ok _) ih

theorem settles_octet? (v : Value) : Settles v.octet? := by
  cases v with
  | int n => exact .ite (settles_ok _) (settles_error rfl)
  | bool b => exact settles_ok _
  | _ => exact settles_error rfl

theorem settles_contains (container v : Value) : Settles (container.contains v) := by
  cases container with
  | list items | tuple items => exact settles_isAmong v items
  | set items => exact .ite (settles_ok _) (settles_error rfl)
  | record entries =>
      refine .ite ?_ (settles_error rfl)
      cases v <;> exact settles_ok _
  | text s =>
      cases v with
      | text t => exact settles_ok _
      | _ => exact settles_error rfl
  | bytes octets =>
      cases v with
      | bytes part => exact settles_ok _
      | _ =>
          refine (settles_octet? _).bind fun o => ?_
          cases o <;> exact settles_ok _
  | _ => exact settles_error rfl

theorem settles_containsAll (container : Value) (vs : List Value) :
    Settles (container.containsAll vs) := by
  induction vs with
  | nil => exact settles_ok _
  | cons v vs ih =>
      rw [containsAll]
      exact (settles_contains container v).bind fun _ => .ite ih (settles_ok _)

theorem settles_containsAny (container : Value) (vs : List Value) :
    Settles (container.containsAny vs) := by
  induction vs with
  | nil => exact settles_ok _
  | cons v vs ih =>
      rw [containsAny]
      exact (settles_contains container v).bind fun _ => .ite (settles_ok _) ih

theorem settles_findScalar (e a : Value) : Settles (findScalar e a) := by
  induction a using nestedInduction with
  | list items ih =>
      rw [findScalar]
      induction items with
      | nil => exact settles_ok _
      | cons a items ihItems =>
          rw [findScalarAmong]
          exact (ih a List.mem_cons_self).bind fun _ =>
            .ite (settles_ok _) (ihItems fun v hv => ih v (List.mem_cons_of_mem _ hv))
  | record => exact settles_equals _ _
  | single a ha => exact findScalar_of_isSingle ha e ▸ settles_equals _ _

theorem settles_isContainedIn (e a : Value) : Settles (e.isContainedIn a) := by
  induction e using nestedInduction generalizing a with
  | list es ih =>
      cases a with
      | list as =>
          rw [isContainedIn]
          induction es with
          | nil => exact settles_ok _
          | cons e es ihItems =>
              rw [itemsAreContainedIn]
              refine Settles.bind (settles_anyM fun a _ => ih e List.mem_cons_self a) fun _ => ?_
              exact .ite (ihItems fun v hv => ih v (List.mem_cons_of_mem _ hv)) (settles_ok _)
      | _ => exact settles_ok _
  | record es ih =>
      cases a with
      | record as =>
          rw [isContainedIn]
          induction es with
          | nil => exact settles_ok _
          | cons entry es ihEntries =>
              obtain ⟨name, e⟩ := entry
              rw [entriesAreContainedIn]
              split
              · refine Settles.bind (ih name e List.mem_cons_self _) fun _ => .ite ?_ (settles_ok _)
                exact ihEntries fun other v hv => ih other v (List.mem_cons_of_mem _ hv)
              · exact settles_ok _
      | _ => exact settles_ok _
  | single e he => exact isContainedIn_of_isSingle he a ▸ settles_findScalar e a

end Value

/-! ## Patterns -/

/-- What cannot be read is unknown, and so is what asks for too many repetitions. -/
theorem Pattern.settles_search {pattern : String} (h : ofText pattern ≠ .error .tooDeep)
    (text : String) : Settles (search pattern text) := by
  unfold search
  split
  case h_1 => exact settles_ok _
  case h_2 fault heq =>
    cases fault with
    | unreadable | tooLarge => exact settles_error rfl
    | tooDeep => exact absurd heq h

/-! ## Operators -/

namespace Operator

variable {op : Operator} {v : Value}

/-- The comparison is not one with a pattern that is nested too deep. -/
def Fathoms (op : Operator) (v : Value) : Prop :=
  op = .regex → Pattern.ofText v.display ≠ .error .tooDeep

/-- A pattern is all that can go wrong between two texts. -/
theorem settles_textTest? (hdeep : op.Fathoms v) (actual : String) :
    Settles ((op.textTest? actual v.display).getD (.ok false)) := by
  cases op with
  | regex => exact Pattern.settles_search (hdeep rfl) actual
  | _ => exact settles_ok _

/-- A value of the shape that ranges demand has two bounds. -/
theorem exists_bounds (h : Shape.pair.accepts v = .ok true) :
    ∃ low high, v.items? = some [low, high] := by
  rw [Shape.accepts, Except.ok.injEq] at h
  split at h
  case h_1 items hitems =>
    obtain ⟨hlength, -⟩ := Bool.and_eq_true_iff.1 h
    obtain ⟨low, high, rfl⟩ := List.length_eq_two.1 (beq_iff_eq.1 hlength)
    exact ⟨low, high, hitems⟩
  case h_2 => cases h

theorem settles_testPresent (actual : Value) (h : op.shape.accepts v = .ok true)
    (hdeep : op.Fathoms v) : Settles (op.testPresent actual v) := by
  have htexts := settles_textTest? hdeep actual.display
  cases op with
  | eq => exact actual.settles_matchesValue v
  | isIn => exact v.settles_elements.bind fun _ => Value.settles_matchesOne _ _
  | gt | gte | lt | lte => exact Value.settles_isOrderedAs _ actual v
  | between =>
      obtain ⟨low, high, hv⟩ := exists_bounds h
      exact actual.settles_isBetween hv
  | nbetween =>
      obtain ⟨low, high, hv⟩ := exists_bounds h
      exact (actual.settles_isBetween hv).bind fun _ => settles_ok _
  | arrayContains => exact v.settles_elements.bind fun _ => Value.settles_containsAll _ _
  | arrayContainsAny => exact v.settles_elements.bind fun _ => Value.settles_containsAny _ _
  | arrayContained => exact actual.settles_elements.bind fun _ => Value.settles_containsAll _ _
  | arrayLength => exact actual.settles_size.bind fun _ => Value.settles_equals _ _
  | jsonContains => exact Value.settles_isContainedIn _ _
  | jsonHasKey =>
      cases actual with
      | record entries => exact Value.settles_contains (.record entries) v
      | _ => exact settles_ok _
  | jsonHasAnyKeys =>
      cases actual with
      | record => exact v.settles_elements.bind fun _ => Value.settles_containsAny _ _
      | _ => exact settles_ok _
  | jsonHasAllKeys =>
      cases actual with
      | record => exact v.settles_elements.bind fun _ => Value.settles_containsAll _ _
      | _ => exact settles_ok _
  | _ => exact htexts

/-- **A comparison has a result or is undecided**, whatever the record has, if the condition's value
has the shape of the operator and is no pattern that is nested too deep. -/
theorem settles_test (actual : Value) (h : op.shape.accepts v = .ok true)
    (hdeep : actual ≠ .null → op.Fathoms v) : Settles (op.test actual v) := by
  cases op with
  | isNull => exact settles_ok _
  | empty | arrayEmpty => exact actual.settles_isEmptyValue.bind fun _ => settles_ok _
  | neq => exact (actual.settles_matchesValue v).bind fun _ => settles_ok _
  | notIn =>
      cases actual with
      | null => exact settles_ok _
      | _ =>
          exact v.settles_elements.bind fun _ =>
            (Value.settles_matchesOne _ _).bind fun _ => settles_ok _
  | _ =>
      cases hactual : actual.isNull with
      | true =>
          cases actual with
          | null => exact settles_ok _
          | _ => cases hactual
      | false =>
          rw [test_of_present hactual (by decide)]
          refine settles_testPresent actual h (hdeep ?_)
          rintro rfl
          cases hactual

end Operator

/-! ## Conditions -/

variable {record : Record}

namespace Condition

variable {c : Condition}

/-- The condition's pattern is nested too deep, and the record has a value to be matched. -/
structure Overtaxes (c : Condition) (record : Record) : Prop where
  /-- The condition is on a pattern. -/
  operator : c.operator = .regex
  /-- It is on a field of the record. -/
  field : Text.hasChar '.' c.field = false
  /-- The record has a value there. -/
  present : record.get c.field ≠ .null
  /-- The pattern is nested too deep. -/
  tooDeep : Pattern.ofText c.value.display = .error .tooDeep

/-- With few opening parentheses no pattern is nested too deep. -/
theorem not_overtaxes_of_count (h : c.value.display.toList.count '(' < 325) :
    ¬ c.Overtaxes record :=
  fun hover => Pattern.ofText_ne_tooDeep h hover.tooDeep

theorem Overtaxes.evaluate (h : c.Overtaxes record) : c.evaluate record = .error .tooDeep := by
  have hpresent : (record.get c.field).isNull = false := by
    cases hnull : record.get c.field <;> first | rfl | exact absurd hnull h.present
  have htest : c.operator.test (record.get c.field) c.value = .error .tooDeep := by
    rw [h.operator, Operator.test_of_present hpresent (by decide)]
    change Pattern.search _ _ = _
    rw [Pattern.search, h.tooDeep]
    rfl
  rw [Condition.evaluate, h.field, h.operator, if_neg (by decide), ← h.operator, htest]
  rfl

/-- A checked condition is decided or unknown, unless it overtaxes. -/
theorem exists_evaluate (h : c.operator.checkValue c.value c.field = .ok ())
    (hover : ¬ c.Overtaxes record) : ∃ t, c.evaluate record = .ok t := by
  unfold Condition.evaluate
  split
  case isTrue => exact ⟨.unknown, rfl⟩
  case isFalse hfield =>
    rw [Bool.or_eq_true, not_or, Bool.not_eq_true] at hfield
    have hdeep (hpresent : record.get c.field ≠ .null) : c.operator.Fathoms c.value :=
      fun hop htooDeep => hover ⟨hop, hfield.1, hpresent, htooDeep⟩
    split
    case h_1 b _ => exact ⟨.ofBool b, rfl⟩
    case h_2 d hd =>
      rw [if_pos (Operator.settles_test _ (Operator.accepts_of_checkValue h) hdeep d hd)]
      exact ⟨.unknown, rfl⟩

end Condition

/-! ## Filters -/

namespace Filter

variable {f : Filter}

theorem error_of_andThen {x y : Except Defect Truth} {d : Defect} (h : andThen x y = .error d) :
    x = .error d ∨ y = .error d := by
  cases x with
  | error e => exact .inl h
  | ok s =>
      cases y with
      | error e => cases s <;> first | exact .inr h | cases h
      | ok t => rw [andThen_ok] at h; cases h

/-- A filter breaks off where one of its conditions does. -/
theorem exists_of_evaluate_eq_error {d : Defect} (h : f.evaluate record = .error d) :
    ∃ c ∈ f.conditions, c.evaluate record = .error d := by
  induction f using deMorganInduction generalizing d with
  | leaf c => exact ⟨c, List.mem_singleton_self c, h⟩
  | conj fs ih =>
      change evaluateAll record fs = _ at h
      induction fs with
      | nil => cases h
      | cons f fs ihs =>
          rw [evaluateAll_cons] at h
          rcases error_of_andThen h with h | h
          · obtain ⟨c, hc, heq⟩ := ih f List.mem_cons_self h
            exact ⟨c, List.mem_append_left _ hc, heq⟩
          · obtain ⟨c, hc, heq⟩ := ihs (fun f hf => ih f (List.mem_cons_of_mem _ hf)) h
            exact ⟨c, List.mem_append_right _ hc, heq⟩
  | neg f ih =>
      rw [evaluate_neg] at h
      cases hf : f.evaluate record with
      | error e =>
          rw [hf] at h
          cases h
          exact ih hf
      | ok t => rw [hf] at h; cases h
  | disj fs ih =>
      rw [evaluate_disj] at h
      obtain ⟨c, hc, heq⟩ := ih h
      change c ∈ conditionsOf (fs.map neg) at hc
      rw [conditionsOf_map_neg] at hc
      exact ⟨c, hc, heq⟩
  | all | none => cases h

/-- The filter has the truth value that those of its conditions give it, unless it breaks off at a
condition with a pattern that is nested too deep. -/
structure Settled (f : Filter) (record : Record) : Prop where
  /-- The answer. -/
  value : (∀ c ∈ f.conditions, ¬ c.Overtaxes record) →
    ∃ v : Condition → Truth, (∀ c ∈ f.conditions, c.evaluate record = .ok (v c)) ∧
      f.evaluate record = .ok (f.value v)
  /-- The only way to break off. -/
  defect : ∀ d, f.evaluate record = .error d →
    d = .tooDeep ∧ ∃ c ∈ f.conditions, c.Overtaxes record

theorem settled (h : ∀ c ∈ f.conditions, c.operator.checkValue c.value c.field = .ok ()) :
    f.Settled record where
  value hover := by
    have hall (c : Condition) : ∃ t, c ∈ f.conditions → c.evaluate record = .ok t := by
      by_cases hc : c ∈ f.conditions
      · obtain ⟨t, ht⟩ := Condition.exists_evaluate (h c hc) (hover c hc)
        exact ⟨t, fun _ => ht⟩
      · exact ⟨.unknown, fun hc' => absurd hc' hc⟩
    choose v hv using hall
    exact ⟨v, hv, evaluate_eq_value hv⟩
  defect d hd := by
    obtain ⟨c, hc, heq⟩ := exists_of_evaluate_eq_error hd
    by_cases hover : c.Overtaxes record
    · rw [hover.evaluate] at heq
      cases heq
      exact ⟨rfl, c, hc, hover⟩
    · obtain ⟨t, ht⟩ := Condition.exists_evaluate (h c hc) hover
      rw [ht] at heq
      cases heq

end Filter

/-- **Only a pattern that is nested too deep keeps a valid filter from an answer.** Take any record,
whatever the kinds of its values.

* A condition whose value passes the check of its operator is decided or unknown, unless it is one
  on a pattern that is nested too deep and the record has a value for it; then, and only then, it
  breaks off.
* Without such conditions a filter of checked ones has the truth value that theirs give it, and with
  them it breaks off in this way at most.
* So it is for every filter that was read and whose variables were then replaced.
* No pattern with fewer than 325 opening parentheses is nested too deep, and every one that begins
  with 489 of them is. -/
theorem evaluation_answers_unless_too_deep (record : Record) :
    (∀ c : Condition, c.operator.checkValue c.value c.field = .ok () →
      (¬ c.Overtaxes record → ∃ t, c.evaluate record = .ok t) ∧
      ∀ d, c.evaluate record = .error d ↔ d = .tooDeep ∧ c.Overtaxes record) ∧
    (∀ f : Filter, (∀ c ∈ f.conditions, c.operator.checkValue c.value c.field = .ok ()) →
      f.Settled record) ∧
    (∀ (reader : FilterReader) (collection : String) (raw : RawFilter) (resolver : Resolver)
      (f g : Filter), reader.parse collection raw = .ok (some f) →
      resolver.resolveFilter f = .ok g → g.Settled record) ∧
    (∀ c : Condition, c.value.display.toList.count '(' < 325 → ¬ c.Overtaxes record) ∧
    ∀ (k : Nat) (cs : List Char), 489 ≤ k →
      Pattern.ofText (String.ofList (List.replicate k '(' ++ cs)) = .error .tooDeep := by
  refine ⟨fun c h => ⟨c.exists_evaluate h, fun d => ?_⟩, fun f h => f.settled h, ?_,
    fun c => c.not_overtaxes_of_count, fun k cs hk => Pattern.ofText_eq_tooDeep hk cs⟩
  · constructor
    · intro hd
      by_cases hover : c.Overtaxes record
      · rw [hover.evaluate] at hd
        exact ⟨(Except.error.inj hd).symm, hover⟩
      · obtain ⟨t, ht⟩ := c.exists_evaluate h hover
        rw [ht] at hd
        cases hd
    · rintro ⟨rfl, hover⟩
      exact hover.evaluate
  · intro reader collection raw resolver f g hparse hresolve
    have hchecked := FilterReader.checked_of_parse hparse
    exact g.settled fun c hc => (resolver.valid_of_mem_resolveFilter hchecked hresolve hc).value

namespace Sample

/-- A filter on titles from the time of the request to a letter. -/
def titleRange : RawFilter :=
  .raw (.record [("title", .record [("between", .list [.text "$NOW", .text "z"])])])

/-- A post with a number as its title. -/
def numberedPost : Record :=
  [("title", .int 5)]

/-- A group in a group, and so on, with a letter in the innermost. -/
def nestedGroups (k : Nat) : String :=
  String.ofList (List.replicate k '(' ++ 'a' :: List.replicate k ')')

/-- A condition on titles with six hundred groups in each other. -/
def deepTitle : Condition :=
  ⟨"title", .regex, .text (nestedGroups 600), none⟩

end Sample

/-- Another author's post has an answer, and a number between a time and a letter is unknown. -/
theorem evaluation_answers_unless_too_deep_titleRange :
    Operator.eq.checkValue (.text "$CURRENT_USER") "author_id" = .ok () ∧
    (∃ t, Sample.ownPost.evaluate Sample.foreignData = .ok t) ∧
    ∃ f g, Sample.reader.parse "posts" Sample.titleRange = .ok (some f) ∧
      Sample.resolver.resolveFilter f = .ok g ∧ g.evaluate Sample.numberedPost = .ok .unknown ∧
      ∃ v : Condition → Truth, (∀ c ∈ g.conditions, c.evaluate Sample.numberedPost = .ok (v c)) ∧
        g.evaluate Sample.numberedPost = .ok (g.value v) := by
  have hvalue : Operator.eq.checkValue (.text "$CURRENT_USER") "author_id" = .ok () := rfl
  obtain ⟨-, hown, -, hfew, -⟩ := evaluation_answers_unless_too_deep Sample.foreignData
  obtain ⟨v, -, hanswer⟩ := (hown Sample.ownPost (List.forall_mem_singleton.2 hvalue)).value
    (List.forall_mem_singleton.2 (hfew _ (by decide)))
  obtain ⟨f, g, hparse, hresolve, hunknown, hnone⟩ : ∃ f g,
      Sample.reader.parse "posts" Sample.titleRange = .ok (some f) ∧
        Sample.resolver.resolveFilter f = .ok g ∧
        g.evaluate Sample.numberedPost = .ok .unknown ∧
        ∀ c ∈ g.conditions, ¬ c.Overtaxes Sample.numberedPost :=
    ⟨_, _, rfl, rfl, rfl, List.forall_mem_singleton.2 fun hover => nomatch hover.operator⟩
  obtain ⟨-, -, hread, -⟩ := evaluation_answers_unless_too_deep Sample.numberedPost
  exact ⟨hvalue, ⟨_, hanswer⟩, f, g, hparse, hresolve, hunknown,
    (hread _ _ _ _ f g hparse hresolve).value hnone⟩

/-- A condition whose value passes the check breaks off: its pattern is nested too deep. -/
theorem deep_pattern_breaks_off :
    Sample.deepTitle.operator.checkValue Sample.deepTitle.value Sample.deepTitle.field = .ok () ∧
    (Filter.leaf Sample.deepTitle).evaluate Sample.numberedPost = .error .tooDeep := by
  have hover : Sample.deepTitle.Overtaxes Sample.numberedPost :=
    ⟨rfl, rfl, nofun, Pattern.ofText_eq_tooDeep (by decide) _⟩
  exact ⟨rfl, hover.evaluate⟩

/-- A range of one bound, which no check lets through, has no answer. -/
example : Condition.evaluate ⟨"title", .between, .list [.int 1], none⟩ Sample.numberedPost =
    .error .missingIndex := rfl

end Warden
