import Warden.Proofs.Access.Resolution
import Warden.Proofs.Query.Validity
import Warden.Proofs.Sample

/-! # Tokens at any depth of a value

Two recursions go through a value: one looks for tokens, the other puts values in their place. Both
go into lists of either kind and into the values of a record, and into nothing else, and take every
other value for a leaf (**`Value.placeInduction`**).

* **`Resolver.Replaces`** says what becomes of a value: at a leaf that is a token stands what the
  token alone is resolved to, and everything else is kept.
* **`Resolver.resolve_eq_ok_iff`**: resolving gives exactly that.
* A value in which no token is found is therefore left as it is, by every caller. Nothing is missed
  either: a caller without user, role and tenant leaves no token as it is
  (`Resolver.hasVariable_of_replaces_nobody`).

So the conditions that are passed over when the variables of a filter are replaced are those that
replacing would not change (**`scan_agrees_with_replacement`**). -/

namespace Warden

namespace Value

/-! ## Leaves -/

/-- The value is not looked into for tokens. -/
def isLeaf : Value → Bool
  | .list _ | .tuple _ | .record _ => false
  | _ => true

/-- Induction over the places where tokens can stand: the statement may be used for each item and
for the value of each entry. -/
@[elab_as_elim]
theorem placeInduction {motive : Value → Prop}
    (list : ∀ items, (∀ v ∈ items, motive v) → motive (.list items))
    (tuple : ∀ items, (∀ v ∈ items, motive v) → motive (.tuple items))
    (record : ∀ entries : Record, (∀ v ∈ entries.map (·.2), motive v) → motive (.record entries))
    (leaf : ∀ v, v.isLeaf = true → motive v) (v : Value) : motive v := by
  match v with
  | .list items => exact list items fun w _ => placeInduction list tuple record leaf w
  | .tuple items => exact tuple items fun w _ => placeInduction list tuple record leaf w
  | .record entries =>
      refine record entries fun w hw => ?_
      obtain ⟨entry, hentry, rfl⟩ := List.mem_map.1 hw
      exact placeInduction list tuple record leaf entry.2
  | .null | .bool _ | .int _ | .float _ | .decimal _ | .text _ | .bytes _ | .datetime _ | .date _
  | .time _ | .uuid _ | .set _ => exact leaf _ rfl
decreasing_by
  · -- an item is smaller than its list
    have hlt := List.sizeOf_lt_of_mem ‹_›
    rw [Value.list.sizeOf_spec]
    omega
  · have hlt := List.sizeOf_lt_of_mem ‹_›
    rw [Value.tuple.sizeOf_spec]
    omega
  · -- and so is the value of an entry, which is a pair, than its record
    have hlt := List.sizeOf_lt_of_mem hentry
    have hentry : sizeOf entry = 1 + sizeOf entry.1 + sizeOf entry.2 := Prod.mk.sizeOf_spec _ _
    rw [Value.record.sizeOf_spec]
    omega

/-! ## Where tokens are found -/

theorem hasVariable_of_isLeaf {v : Value} (h : v.isLeaf = true) :
    v.hasVariable = v.isVariable := by
  cases v with
  | list | tuple | record => cases h
  | _ => simp only [hasVariable, isVariable]

theorem anyVariable_eq_any (vs : List Value) : anyVariable vs = vs.any hasVariable := by
  induction vs with
  | nil => rfl
  | cons v vs ih => rw [anyVariable, ih, List.any_cons]

theorem anyEntryVariable_eq_any (es : Record) :
    anyEntryVariable es = (es.map (·.2)).any hasVariable := by
  induction es with
  | nil => rfl
  | cons entry es ih => rw [anyEntryVariable, ih, List.map_cons, List.any_cons]

end Value

namespace Resolver

variable {r : Resolver} {v w : Value}

/-! ## What becomes of a value -/

/-- The second value is the first one with what each token stands for in its place. -/
inductive Replaces (r : Resolver) : Value → Value → Prop where
  /-- In the place of a token stands what the token alone is resolved to. -/
  | token {s : String} {w : Value} (h : (Value.text s).isVariable = true)
      (hw : r.resolve (.text s) = .ok w) : Replaces r (.text s) w
  /-- Every other leaf is kept. -/
  | kept {v : Value} (hleaf : v.isLeaf = true) (h : v.isVariable = false) : Replaces r v v
  /-- A list stays a list of as many items. -/
  | list {vs ws : List Value} (h : List.Forall₂ (Replaces r) vs ws) :
      Replaces r (.list vs) (.list ws)
  /-- A list of fixed length stays one of that length. -/
  | tuple {vs ws : List Value} (h : List.Forall₂ (Replaces r) vs ws) :
      Replaces r (.tuple vs) (.tuple ws)
  /-- A record stays a record with the same names. -/
  | record {es fs : Record} (hnames : Named.names es = Named.names fs)
      (h : List.Forall₂ (Replaces r) (es.map (·.2)) (fs.map (·.2))) :
      Replaces r (.record es) (.record fs)

/-- Values are resolved one by one. -/
theorem resolveItems_eq_ok {R : Value → Value → Prop} {vs ws : List Value}
    (h : ∀ v ∈ vs, ∀ w, r.resolve v = .ok w ↔ R v w) :
    r.resolveItems vs = .ok ws ↔ List.Forall₂ R vs ws := by
  induction vs generalizing ws with
  | nil =>
      rw [resolveItems, List.forall₂_nil_left_iff, Except.ok.injEq, eq_comm]
  | cons v vs ih =>
      obtain ⟨hv, hvs⟩ := List.forall_mem_cons.1 h
      simp only [resolveItems, Outcome.bind_eq_ok, Outcome.pure_eq_ok, List.forall₂_cons_left_iff,
        hv, ih hvs]
      constructor
      · rintro ⟨w, hw, ws, hws, rfl⟩
        exact ⟨w, ws, hw, hws, rfl⟩
      · rintro ⟨w, ws, hw, hws, rfl⟩
        exact ⟨w, hw, ws, hws, rfl⟩

/-- The values of entries are resolved one by one, under their names. -/
theorem resolveEntries_eq_ok {R : Value → Value → Prop} {es fs : Record}
    (h : ∀ v ∈ es.map (·.2), ∀ w, r.resolve v = .ok w ↔ R v w) :
    r.resolveEntries es = .ok fs ↔
      Named.names es = Named.names fs ∧ List.Forall₂ R (es.map (·.2)) (fs.map (·.2)) := by
  induction es generalizing fs with
  | nil =>
      rw [resolveEntries, Except.ok.injEq]
      constructor
      · rintro rfl
        exact ⟨rfl, .nil⟩
      · rintro ⟨hnames, -⟩
        exact (Named.names_eq_nil.1 hnames.symm).symm
  | cons entry es ih =>
      obtain ⟨name, v⟩ := entry
      obtain ⟨hv, hes⟩ := List.forall_mem_cons.1 h
      simp only [resolveEntries, Outcome.bind_eq_ok, Outcome.pure_eq_ok, hv, ih hes]
      constructor
      · rintro ⟨w, hw, fs, ⟨hnames, hfs⟩, rfl⟩
        exact ⟨congrArg (name :: ·) hnames, .cons hw hfs⟩
      · rintro ⟨hnames, hfs⟩
        cases fs with
        | nil => cases hfs
        | cons other fs =>
            obtain ⟨other, w⟩ := other
            obtain ⟨rfl, hrest⟩ := List.cons.inj hnames
            cases hfs with
            | cons hw hfs => exact ⟨w, hw, fs, ⟨hrest, hfs⟩, rfl⟩

/-- A leaf that is no token is resolved to itself. -/
theorem resolve_of_isLeaf (hleaf : v.isLeaf = true) (h : v.isVariable = false) :
    r.resolve v = .ok v := by
  cases v with
  | list | tuple | record => cases hleaf
  | text s =>
      have hnone : Variable.ofText? s = none := by
        rwa [Value.isVariable, Option.isSome_eq_false_iff, Option.isNone_iff_eq_none] at h
      rw [resolve, resolveText, hnone]
  | _ => rfl

/-- **Resolving a value puts what each token stands for in its place**, and has no result only where
a token has none. -/
theorem resolve_eq_ok_iff : r.resolve v = .ok w ↔ r.Replaces v w := by
  induction v using Value.placeInduction generalizing w with
  | list items ih =>
      rw [resolve, Outcome.bind_eq_ok]
      simp only [Outcome.pure_eq_ok, resolveItems_eq_ok fun v hv w => ih v hv (w := w)]
      constructor
      · rintro ⟨ws, hws, rfl⟩
        exact .list hws
      · intro h
        cases h with
        | kept hleaf => cases hleaf
        | list h => exact ⟨_, h, rfl⟩
  | tuple items ih =>
      rw [resolve, Outcome.bind_eq_ok]
      simp only [Outcome.pure_eq_ok, resolveItems_eq_ok fun v hv w => ih v hv (w := w)]
      constructor
      · rintro ⟨ws, hws, rfl⟩
        exact .tuple hws
      · intro h
        cases h with
        | kept hleaf => cases hleaf
        | tuple h => exact ⟨_, h, rfl⟩
  | record entries ih =>
      rw [resolve, Outcome.bind_eq_ok]
      simp only [Outcome.pure_eq_ok, resolveEntries_eq_ok fun v hv w => ih v hv (w := w)]
      constructor
      · rintro ⟨fs, ⟨hnames, hfs⟩, rfl⟩
        exact .record hnames hfs
      · intro h
        cases h with
        | kept hleaf => cases hleaf
        | record hnames h => exact ⟨_, ⟨hnames, h⟩, rfl⟩
  | leaf v hleaf =>
      cases hvariable : v.isVariable with
      | false =>
          rw [resolve_of_isLeaf hleaf hvariable, Except.ok.injEq]
          constructor
          · rintro rfl
            exact .kept hleaf hvariable
          · intro h
            cases h with
            | token htoken => cases htoken.symm.trans hvariable
            | kept => rfl
            | list | tuple | record => cases hleaf
      | true =>
          cases v with
          | text s =>
              constructor
              · exact .token hvariable
              · intro h
                cases h with
                | token _ hw => exact hw
                | kept _ hnone => cases hvariable.symm.trans hnone
          | _ => cases hvariable

/-! ## Values without tokens -/

/-- A value without tokens is left as it is. -/
theorem replaces_self (h : v.hasVariable = false) : r.Replaces v v := by
  induction v using Value.placeInduction with
  | list items ih =>
      rw [Value.hasVariable, Value.anyVariable_eq_any, List.any_eq_false] at h
      exact .list (List.forall₂_same.2 fun v hv => ih v hv (Bool.eq_false_iff.2 (h v hv)))
  | tuple items ih =>
      rw [Value.hasVariable, Value.anyVariable_eq_any, List.any_eq_false] at h
      exact .tuple (List.forall₂_same.2 fun v hv => ih v hv (Bool.eq_false_iff.2 (h v hv)))
  | record entries ih =>
      rw [Value.hasVariable, Value.anyEntryVariable_eq_any, List.any_eq_false] at h
      exact .record rfl (List.forall₂_same.2 fun v hv => ih v hv (Bool.eq_false_iff.2 (h v hv)))
  | leaf v hleaf => exact .kept hleaf ((Value.hasVariable_of_isLeaf hleaf).symm.trans h)

/-- A caller of whom nothing is known. -/
def nobody (now : DateTime) : Resolver :=
  ⟨⟨none, none, none, none⟩, now⟩

/-- A time that is moved is a time. -/
theorem exists_datetime_of_moved {shift : TimeShift} (h : r.moved shift = .ok w) :
    ∃ t, w = .datetime t := by
  by_cases hdigits : digitLimit < shift.digits.length
  · rw [moved, if_pos hdigits] at h
    exact absurd h (Outcome.breakOff_ne_ok _ _)
  · rw [moved_eq hdigits] at h
    split at h
    case h_1 t _ => exact ⟨t, (Except.ok.inj h).symm⟩
    all_goals exact absurd h (Outcome.breakOff_ne_ok _ _)

/-- Nobody's tokens stand for times or for nothing, but never for themselves. -/
theorem resolve_nobody_ne {now : DateTime} {s : String}
    (h : (Value.text s).isVariable = true) : (nobody now).resolve (.text s) ≠ .ok (.text s) := by
  obtain ⟨meaning, hmeaning⟩ := Option.isSome_iff_exists.1 h
  rw [resolve, resolveText, hmeaning]
  cases meaning with
  | user | role | tenant => exact Outcome.refuse_ne_ok _ _
  | now shift =>
      cases shift with
      | none =>
          intro hnow
          cases hnow
      | some shift =>
          intro hmoved
          obtain ⟨t, ht⟩ := exists_datetime_of_moved hmoved
          cases ht

/-- A value that nobody's tokens leave as it is has none. -/
theorem hasVariable_of_replaces_nobody {now : DateTime} (h : (nobody now).Replaces v v) :
    v.hasVariable = false := by
  induction v using Value.placeInduction with
  | list items ih | tuple items ih =>
      rw [Value.hasVariable, Value.anyVariable_eq_any, List.any_eq_false]
      intro v hv
      cases h with
      | kept hleaf => cases hleaf
      | _ h => exact Bool.eq_false_iff.1 (ih v hv (List.forall₂_same.1 h v hv))
  | record entries ih =>
      rw [Value.hasVariable, Value.anyEntryVariable_eq_any, List.any_eq_false]
      intro v hv
      cases h with
      | kept hleaf => cases hleaf
      | record _ h => exact Bool.eq_false_iff.1 (ih v hv (List.forall₂_same.1 h v hv))
  | leaf v hleaf =>
      rw [Value.hasVariable_of_isLeaf hleaf]
      cases h with
      | token htoken hw => exact absurd hw (resolve_nobody_ne htoken)
      | kept _ hnone => exact hnone
      | list | tuple | record => cases hleaf

/-- **The tokens that are looked for are those that are replaced**: a value has none iff every
caller's variables leave it as it is. -/
theorem hasVariable_eq_false_iff : v.hasVariable = false ↔ ∀ r : Resolver, r.resolve v = .ok v := by
  constructor
  · exact fun h r => resolve_eq_ok_iff.2 (replaces_self h)
  · exact fun h => hasVariable_of_replaces_nobody (resolve_eq_ok_iff.1 (h (nobody DateTime.first)))

/-! ## Conditions -/

/-- The condition with its value resolved, whatever it holds. -/
def substitute (r : Resolver) (c : Condition) : Outcome Condition := do
  return { c with value := ← r.resolve c.value }

/-- The condition with its value resolved and checked again, whatever it holds. -/
def substituteChecked (r : Resolver) (c : Condition) : Outcome Filter := do
  let c ← r.substitute c
  c.operator.checkValue c.value c.field
  return .leaf c

variable {c : Condition}

/-- A condition whose value has no tokens is resolved to itself. -/
theorem substitute_of_hasVariable (h : c.value.hasVariable = false) : r.substitute c = .ok c := by
  rw [substitute, hasVariable_eq_false_iff.1 h r]
  rfl

/-- A condition is resolved and checked, unless it has no tokens and was checked before. -/
theorem resolveCondition_eq_substituteChecked
    (h : c.value.hasVariable = false → c.operator.checkValue c.value c.field = .ok ()) :
    r.resolveCondition c = r.substituteChecked c := by
  rw [resolveCondition, substituteChecked]
  split
  case isTrue =>
    rw [substitute]
    cases r.resolve c.value <;> rfl
  case isFalse hno =>
    have hnone := Bool.eq_false_iff.2 hno
    rw [substitute_of_hasVariable hnone, Outcome.ok_bind, h hnone]
    rfl

end Resolver

/-- Replacements that agree on the conditions of a filter agree on the filter. -/
theorem Filter.mapConditions_congr {m m' : Condition → Outcome Filter} {f : Filter}
    (h : ∀ c ∈ f.conditions, m c = m' c) : f.mapConditions m = f.mapConditions m' := by
  have hall {fs : List Filter} (hfs : ∀ f ∈ fs, f.mapConditions m = f.mapConditions m') :
      mapConditionsOf m fs = mapConditionsOf m' fs := by
    induction fs with
    | nil => rfl
    | cons f fs ih =>
        obtain ⟨hf, hrest⟩ := List.forall_mem_cons.1 hfs
        rw [mapConditionsOf, mapConditionsOf, hf, ih hrest]
  induction f with
  | leaf c => exact h c (List.mem_singleton_self c)
  | conj fs ih =>
      rw [mapConditions, mapConditions,
        hall fun f hf => ih f hf fun c hc => h c (mem_conditions_conj.2 ⟨f, hf, hc⟩)]
  | disj fs ih =>
      rw [mapConditions, mapConditions,
        hall fun f hf => ih f hf fun c hc => h c (mem_conditions_disj.2 ⟨f, hf, hc⟩)]
  | neg f ih => rw [mapConditions, mapConditions, ih h]
  | all | none => rfl

/-- **Looking for tokens and replacing them agree.** A value in which no token is found is resolved
to itself, and only such a value is, whoever asks. If a value is resolved at all, then to what it
says, with the same lists and records and the same names, and with what each token alone is resolved
to in the token's place. So a condition that is passed over, having no tokens, is what resolving it
would give, and filters that were read are resolved as if all their conditions were resolved and
checked. -/
theorem scan_agrees_with_replacement (r : Resolver) :
    (∀ v : Value, v.hasVariable = false → r.resolve v = .ok v) ∧
    (∀ v : Value, (∀ r : Resolver, r.resolve v = .ok v) → v.hasVariable = false) ∧
    (∀ v w, r.resolve v = .ok w ↔ r.Replaces v w) ∧
    (∀ c : Condition, c.value.hasVariable = false →
      r.resolveCondition c = (r.substitute c).map Filter.leaf) ∧
    (∀ (reader : FilterReader) collection raw f, reader.parse collection raw = .ok (some f) →
      r.resolveFilter f = f.mapConditions r.substituteChecked) := by
  refine ⟨fun v h => Resolver.hasVariable_eq_false_iff.1 h r,
    fun v => Resolver.hasVariable_eq_false_iff.2, fun v w => Resolver.resolve_eq_ok_iff, ?_, ?_⟩
  · intro c h
    rw [Resolver.substitute_of_hasVariable h, Resolver.resolveCondition, h]
    rfl
  · intro reader collection raw f h
    refine Filter.mapConditions_congr fun c hc => ?_
    have hcheck := FilterReader.checkCondition_of_parse h c hc
    exact Resolver.resolveCondition_eq_substituteChecked
      (FilterReader.checked_of_checkCondition hcheck).value

namespace Sample

/-- Tokens in both kinds of lists, and two texts that are none: one that only holds a token and one
that is a name. -/
def signedNote : Value :=
  .record [("by", .list [.text "$CURRENT_USER", .text "at $NOW"]),
    ("$NOW", .tuple [.text "$NOW", .int 1])]

/-- The same without tokens. -/
def plainNote : Value :=
  .record [("by", .list [.text "at $NOW"]), ("$NOW", .tuple [.int 1])]

/-- What becomes of the tokens. -/
def resolvedNote : Value :=
  .record [("by", .list [.text "user-1", .text "at $NOW"]),
    ("$NOW", .tuple [.datetime noon, .int 1])]

end Sample

/-- Tokens are replaced in lists of both kinds, but neither in names nor within texts, and a filter
on own posts with a title is resolved in full. -/
theorem scan_agrees_with_replacement_signed :
    (Sample.plainNote.hasVariable = false ∧
      Sample.resolver.resolve Sample.plainNote = .ok Sample.plainNote) ∧
    ((∀ r : Resolver, r.resolve Sample.plainNote = .ok Sample.plainNote) ∧
      Sample.plainNote.hasVariable = false) ∧
    (Sample.resolver.resolve Sample.signedNote = .ok Sample.resolvedNote ∧
      Sample.resolver.Replaces Sample.signedNote Sample.resolvedNote) ∧
    (Sample.resolver.resolveCondition ⟨"title", .eq, Sample.plainNote, none⟩ =
      (Sample.resolver.substitute ⟨"title", .eq, Sample.plainNote, none⟩).map Filter.leaf) ∧
    (∃ f, Sample.reader.parse "posts" (.raw (.record [("title", .text "at $NOW"),
        ("author_id", .text "$CURRENT_USER")])) = .ok (some f) ∧
      Sample.resolver.resolveFilter f = f.mapConditions Sample.resolver.substituteChecked) := by
  obtain ⟨hself, honly, hreplaces, hcondition, hfilter⟩ :=
    scan_agrees_with_replacement Sample.resolver
  have hnone : Sample.plainNote.hasVariable = false := by decide
  have hsigned : Sample.resolver.resolve Sample.signedNote = .ok Sample.resolvedNote := by rfl
  have hunsigned (r : Resolver) : r.resolve Sample.plainNote = .ok Sample.plainNote := by rfl
  have hparse : ∃ f, Sample.reader.parse "posts" (.raw (.record [("title", .text "at $NOW"),
      ("author_id", .text "$CURRENT_USER")])) = .ok (some f) := ⟨_, rfl⟩
  obtain ⟨f, hf⟩ := hparse
  exact ⟨⟨hnone, hself _ hnone⟩, ⟨hunsigned, honly _ hunsigned⟩,
    ⟨hsigned, (hreplaces _ _).1 hsigned⟩, hcondition _ hnone, f, hf, hfilter _ _ _ _ hf⟩

end Warden
