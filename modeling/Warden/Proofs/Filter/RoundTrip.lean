import Warden.Proofs.Filter.Normal
import Warden.Proofs.Filter.Reading
import Warden.Proofs.Sample

/-! # Filters written and read back

The record form of a filter reads back as the filter (**`read_back`**). This is so because whatever
is read is in normal form, so that folding it anew gives it back, and because its conditions have
been checked: they stand under paths that are no connectives, their operators are found under their
names (`Operator.ofName?_name`), and their casts are written in small letters
(`lower_of_isSome_castFamily?`). -/

namespace Warden

/-! ## Names -/

theorem Operator.mem_all (op : Operator) : op ∈ all := by
  cases op <;> decide

/-- Every operator is found under its name. -/
theorem Operator.ofName?_name (op : Operator) : ofName? op.name = some op := by
  have hall : ∀ op ∈ all, ofName? op.name = some op := by decide +kernel
  exact hall op op.mem_all

/-- Casts are written in small letters. -/
theorem lower_of_isSome_castFamily? {cast : String} (h : (castFamily? cast).isSome = true) :
    Text.lower cast = cast ∧ cast.isEmpty = false := by
  have hall : ∀ entry ∈ castFamilies, Text.lower entry.1 = entry.1 ∧ entry.1.isEmpty = false := by
    decide +kernel
  obtain ⟨family, hfamily⟩ := Option.isSome_iff_exists.1 h
  obtain ⟨before, after, heq, -⟩ := List.lookup_eq_some_iff.1 hfamily
  exact hall (cast, family) (heq ▸ List.mem_append_right before List.mem_cons_self)

namespace FilterReader

/-- An operator's name is none of the other members that may stand under a field. -/
theorem name_ne_of_ofName?_eq_none {s : String} (h : Operator.ofName? s = none) (op : Operator) :
    op.name ≠ s := by
  rintro rfl
  rw [op.ofName?_name] at h
  cases h

theorem name_ne_castKey (op : Operator) : op.name ≠ castKey :=
  name_ne_of_ofName?_eq_none (by decide) op

theorem name_ne_notNullKey (op : Operator) : op.name ≠ notNullKey :=
  name_ne_of_ofName?_eq_none (by decide) op

variable {r : FilterReader} {collection path : String} {c : Condition} {f : Filter}
  {fs : List Filter}

/-- The cast of a condition that has been checked is a known one. -/
theorem isSome_castFamily?_of_checkCondition (h : r.checkCondition collection c = .ok ())
    {cast : String} (hcast : c.cast = some cast) : (castFamily? cast).isSome = true := by
  obtain ⟨_, -, h⟩ := Outcome.bind_eq_ok.1 h
  obtain ⟨_, hfamily, -⟩ := Outcome.bind_eq_ok.1 h
  obtain ⟨_, -, hfamily⟩ := Outcome.bind_eq_ok.1 hfamily
  rw [hcast] at hfamily
  cases hfound : castFamily? cast with
  | none => simp [hfound] at hfamily
  | some _ => rfl

/-! ## Conditions -/

/-- The members that stand for a condition under its field. -/
def members (c : Condition) : Record :=
  (c.operator.name, c.value) :: (c.cast.map fun cast => (castKey, Value.text cast)).toList

theorem toRecord_leaf (h : r.checkCondition collection c = .ok ()) :
    (Filter.leaf c).toRecord = [(c.field, .record (members c))] := by
  rw [Filter.toRecord, members]
  cases hcast : c.cast with
  | none => rfl
  | some cast =>
      have hfound := isSome_castFamily?_of_checkCondition h hcast
      have hname : c.operator.name ≠ "cast" := name_ne_castKey c.operator
      simp [(lower_of_isSome_castFamily? hfound).2, Named.insert, hname, castKey]

theorem readCast_members (h : r.checkCondition collection c = .ok ()) :
    readCast path (members c) = .ok c.cast := by
  have hname : (castKey == c.operator.name) = false := by
    simpa using (name_ne_castKey c.operator).symm
  rw [readCast, Record.get, Named.find?, members, List.lookup_cons, hname]
  cases hcast : c.cast with
  | none => rfl
  | some cast =>
      have hfound := isSome_castFamily?_of_checkCondition h hcast
      simp [(lower_of_isSome_castFamily? hfound).1, hfound]

theorem operatorConditions_members (h : r.checkCondition collection c = .ok ()) :
    r.operatorConditions collection c.field c.cast (members c) = .ok [.leaf c] := by
  have hop : Operator.ofName c.operator.name c.field = .ok c.operator := by
    rw [Operator.ofName, Operator.ofName?_name]
  have hleaf : r.condition collection c.field c.operator c.value c.cast = .ok (.leaf c) :=
    Outcome.bind_eq_ok.2 ⟨(), h, rfl⟩
  have hrest (cast : Option String) : r.operatorConditions collection c.field cast
      (c.cast.map fun cast => (castKey, Value.text cast)).toList = .ok [] := by
    cases c.cast <;> rfl
  rw [members, operatorConditions, if_neg (by simpa using name_ne_castKey c.operator),
    if_neg (by simpa using name_ne_notNullKey c.operator)]
  refine Outcome.bind_eq_ok.2 ⟨_, hop, Outcome.bind_eq_ok.2 ⟨_, hleaf, ?_⟩⟩
  rw [hrest]
  rfl

/-- What stands for a condition under its field is read as the condition. -/
theorem readField_members (h : r.checkCondition collection c = .ok ()) :
    r.readField collection c.field (.record (members c)) = .ok (.leaf c) := by
  have hkeys : (members c).all (fun entry => isOperatorKey entry.1) = true := by
    have hname : isOperatorKey c.operator.name = true := by
      rw [isOperatorKey, Operator.ofName?_name, Option.isSome_some, Bool.or_true]
    rw [members, List.all_cons, hname]
    cases c.cast <;> rfl
  rw [readField, if_neg (by simp [members]), if_pos hkeys]
  exact Outcome.bind_eq_ok.2 ⟨_, readCast_members h,
    Outcome.bind_eq_ok.2 ⟨_, operatorConditions_members h, rfl⟩⟩

/-! ## Trees -/

/-- The condition can be written under its path and read back. -/
structure Readable (r : FilterReader) (collection : String) (c : Condition) : Prop where
  /-- Its path is no connective. -/
  path : IsPath c.field
  /-- It fits the catalog. -/
  check : r.checkCondition collection c = .ok ()

/-- The filter's record form reads back as the filter. -/
def ReadsBack (r : FilterReader) (collection : String) (f : Filter) : Prop :=
  (r.readMembers collection "" f.toRecord).map Filter.conjoin = .ok f

theorem readMembers_singleton {name : String} {v : Value} (hname : name.isEmpty = false)
    (h : r.readMember collection "" name v = .ok f) :
    r.readMembers collection "" [(name, v)] = .ok [f] := by
  rw [readMembers_cons, if_neg (by simp [hname]), h]
  rfl

/-- A filter in normal form that is read from a single member is read back. -/
theorem readsBack_of_readMember {name : String} {v : Value} (hrecord : f.toRecord = [(name, v)])
    (hname : name.isEmpty = false) (hf : f.Normal)
    (h : r.readMember collection "" name v = .ok f) : r.ReadsBack collection f := by
  rw [ReadsBack, hrecord, readMembers_singleton hname h]
  show Except.ok (Filter.conjoin [f]) = _
  rw [Filter.conjoin_singleton hf]

/-- The record forms of filters that are read back form a list that is read back. -/
theorem readList_toRecords (connective : String) (h : ∀ f ∈ fs, r.ReadsBack collection f) :
    r.readList collection "" connective (.list (Filter.toRecords fs)) = .ok fs := by
  show r.readItems collection "" connective (Filter.toRecords fs) = _
  induction fs with
  | nil => rfl
  | cons f fs ih =>
      obtain ⟨hf, hfs⟩ := List.forall_mem_cons.1 h
      rw [Filter.toRecords, readItems_cons, hf, ih hfs]
      rfl

/-- **A compact filter is read back** if its conditions are. -/
theorem Compact.readsBack (hf : f.Compact) (hc : ∀ c ∈ f.conditions, r.Readable collection c) :
    r.ReadsBack collection f := by
  induction f with
  | leaf c =>
      obtain ⟨hpath, hcheck⟩ := hc c (List.mem_singleton_self c)
      refine readsBack_of_readMember (toRecord_leaf hcheck) hpath.nonempty hf.normal ?_
      rw [readMember_of_isPath hpath, String.empty_append, readField_members hcheck]
  | conj fs ih =>
      -- the children are read back one by one, and fold to the conjunction again
      have hfs : ∀ f ∈ fs, r.ReadsBack collection f := by
        cases hf with
        | conj _ hfs _ =>
            exact fun f hf => ih f hf (hfs f hf) fun c hcf =>
              hc c (Filter.mem_conditions_conj.2 ⟨f, hf, hcf⟩)
      refine readsBack_of_readMember rfl (by decide) hf.normal ?_
      rw [readMember, if_pos (by decide), readList_toRecords "AND" hfs]
      exact congrArg _ (Filter.conjoin_eq_conj hf)
  | disj fs ih =>
      have hfs : ∀ f ∈ fs, r.ReadsBack collection f := by
        cases hf with
        | disj _ hfs _ =>
            exact fun f hf => ih f hf (hfs f hf) fun c hcf =>
              hc c (Filter.mem_conditions_disj.2 ⟨f, hf, hcf⟩)
      refine readsBack_of_readMember rfl (by decide) hf.normal ?_
      rw [readMember, if_neg (by decide), if_pos (by decide), readList_toRecords "OR" hfs]
      exact congrArg _ (Filter.disjoin_eq_disj hf)
  | neg f ih =>
      have hback : r.ReadsBack collection f := by
        cases hf with
        | neg hf _ => exact ih hf fun c hcf => hc c (by rwa [Filter.conditions])
      -- what the members of the child's record fold to is the child
      obtain ⟨fs, hfs, hfold⟩ := Outcome.map_eq_ok.1 hback
      refine readsBack_of_readMember rfl (by decide) hf.normal ?_
      rw [readMember, if_neg (by decide), if_neg (by decide), if_pos (by decide)]
      refine Outcome.map_eq_ok.2 ⟨fs, hfs, ?_⟩
      rw [hfold, Filter.negate_eq_neg hf]
  | all | none => cases hf

theorem Normal.readsBack (hf : f.Normal) (hc : ∀ c ∈ f.conditions, r.Readable collection c) :
    r.ReadsBack collection f := by
  rcases hf with rfl | rfl | hcompact
  · rfl
  · rfl
  · exact Compact.readsBack hcompact hc

/-! ## Whatever is read -/

/-- Checked conditions are in normal form, and folding keeps filters so. -/
theorem invariant_normal (r : FilterReader) (collection : String) :
    Invariant r collection Filter.Normal where
  leaf c _ _ := (Filter.Compact.leaf c).normal
  conjoin _ hfs := Filter.normal_conjoin hfs
  disjoin _ hfs := Filter.normal_disjoin hfs
  negate _ hf := Filter.normal_negate hf

/-- **What is read is in normal form and is read back.** The filter of a record has no constants
below its connectives and no connective that could be folded, its own record form reads as exactly
this filter, and it passes the checks as a tree. -/
theorem read_back {entries : Record}
    (h : r.parse collection (.raw (.record entries)) = .ok (some f)) :
    f.Normal ∧ r.parse collection (.raw (.record f.toRecord)) = .ok (some f) ∧
      r.parse collection (.tree f) = .ok (some f) := by
  have hnormal : f.Normal := (invariant_normal r collection).of_parse h
  have hreadable : ∀ c ∈ f.conditions, r.Readable collection c :=
    (Invariant.forall_conditions fun _ hpath hcheck => ⟨hpath, hcheck⟩).of_parse h
  refine ⟨hnormal, ?_, ?_⟩
  · obtain ⟨fs, hfs, hfold⟩ := Outcome.map_eq_ok.1 (Normal.readsBack hnormal hreadable)
    refine Outcome.bind_eq_ok.2 ⟨f, Outcome.bind_eq_ok.2 ⟨fs, hfs, ?_⟩, rfl⟩
    exact congrArg _ hfold
  · exact Outcome.bind_eq_ok.2 ⟨(), validate_eq_ok.2 fun c hc => (hreadable c hc).check, rfl⟩

/-- Posts with a title that are not by an author whose name begins with A, twice negated, or by the
caller; written with a list, a nested record, another spelling of an operator and a cast. -/
def sampleRecord : Record :=
  [("title", .record [("isNotNull", .bool true)]),
    ("NOT", .record [("NOT", .record [("OR", .list [
      .record [("NOT", .record [("author", .record [("name", .record
        [("startswith", .text "A"), ("cast", .text "TEXT")])])])],
      .record [("OR", .list []), ("title", .list [.text "a"])],
      .record [("author_id", .text "$CURRENT_USER")]])])])]

/-- The filter that is read from it. -/
def sampleFilter : Filter :=
  .conj [.leaf ⟨"title", .isNull, .bool false, none⟩,
    .disj [.neg (.leaf ⟨"author.name", .startsWith, .text "A", some "text"⟩),
      .leaf ⟨"author_id", .eq, .text "$CURRENT_USER", none⟩]]

/-- A filter that is folded while it is read is read back. -/
theorem read_back_authors :
    Sample.reader.parse "posts" (.raw (.record sampleRecord)) = .ok (some sampleFilter) ∧
      sampleFilter.Normal ∧
      Sample.reader.parse "posts" (.raw (.record sampleFilter.toRecord)) = .ok (some sampleFilter) ∧
      Sample.reader.parse "posts" (.tree sampleFilter) = .ok (some sampleFilter) := by
  have h : Sample.reader.parse "posts" (.raw (.record sampleRecord)) = .ok (some sampleFilter) := by
    rfl
  exact ⟨h, read_back h⟩

end FilterReader

end Warden
