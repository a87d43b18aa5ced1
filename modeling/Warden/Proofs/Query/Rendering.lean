import Warden.Proofs.Query.Names
import Warden.Proofs.Query.Projection
import Warden.Proofs.Query.Structure
import Warden.Proofs.Sql.Joins

/-! # Which plans have statements

A plan is made, and its statements are built from it, by two walks over the same collections. What
the first one has checked the second one does not fail on: paths of conditions lead to fields
(`gives_pathPredicate_iff`), values have the shapes of their operators
(`exists_operatorPredicate_iff`), selections fit the collections (`gives_selectionOutputs`) and sort
paths can be followed (`gives_sorting`).

Two checks are missing. A geometry is checked by its type and for having a list of coordinates, so a
variable among these becomes a value that JSON does not have; and where conditions on related rows
name no field, nobody has looked for the collection of these rows. **`Plan.Writable`** says that a
plan is free of both, and then, and only then, it has its statements
(**`select_and_count_exist_iff`**). -/

namespace Warden

open Sql

variable {k : Catalog} {c target : Collection} {name : String} {n m : Alias}

/-! ## Operators -/

/-- The geometry that the value of an operator is or holds. -/
def Operator.geometry? (op : Operator) (v : Value) : Option Value :=
  match op with
  | .within | .containsGeo | .intersects | .overlaps | .nIntersects => some v
  | .dwithin =>
    match v with
    | .record entries => some (Record.get entries "geometry")
    | _ => none
  | _ => none

/-- The value has a JSON text. -/
def Value.HasJson (v : Value) : Prop :=
  ∃ text, Json.write .plain v = .ok text

/-- The geometry of the condition, if it is on one, has a JSON text. -/
def Condition.Writable (c : Condition) : Prop :=
  ∀ g, c.operator.geometry? c.value = some g → g.HasJson

namespace Sql

variable {op : Operator} {o : Operand} {family : TypeFamily} {v : Value} {field : String}

theorem exists_geometryText_iff : (∃ text, geometryText v = .ok text) ↔ v.HasJson := by
  show (∃ text, (liftM (Json.write .plain v) : Outcome String) = .ok text) ↔ _
  simp only [Outcome.lift_eq_ok]
  rfl

/-- A construction with a step in front that gives a result gives one. -/
theorem exists_bind_iff {α : Type} {x : Outcome α} {f : α → Predicate} :
    (∃ p, (x >>= fun a => pure (f a)) = .ok p) ↔ ∃ a, x = .ok a := by
  constructor
  · rintro ⟨p, h⟩
    obtain ⟨a, ha, -⟩ := Outcome.bind_eq_ok.1 h
    exact ⟨a, ha⟩
  · rintro ⟨a, ha⟩
    exact ⟨f a, Outcome.bind_eq_ok.2 ⟨a, ha, rfl⟩⟩

/-- A member that is not null is there. -/
theorem member_eq_ok {entries : Record} {name : String} (h : Record.get entries name ≠ .null) :
    member (.record entries) name = .ok (Record.get entries name) := by
  rw [member]
  unfold Record.get at h ⊢
  cases hfound : Named.find? entries name with
  | none =>
      rw [hfound] at h
      exact absurd rfl h
  | some w => rfl

/-- With a value of its shape, an operator has a predicate iff the geometry in the value has a JSON
text, if there is one. -/
theorem exists_operatorPredicate_iff (h : op.checkValue v field = .ok ()) :
    (∃ p, operatorPredicate op o family v = .ok p) ↔
      ∀ g, op.geometry? v = some g → g.HasJson := by
  have hshape := Operator.accepts_of_checkValue h
  -- most operators are on no geometry
  have hother (hop : op.geometry? v = none) (hp : ∃ p, operatorPredicate op o family v = .ok p) :
      (∃ p, operatorPredicate op o family v = .ok p) ↔
        ∀ g, op.geometry? v = some g → g.HasJson := by
    refine iff_of_true hp fun g hg => ?_
    rw [hop] at hg
    cases hg
  have hspatial {s : String → Test} (hop : op.geometry? v = some v) :
      (∃ p, (geometryText v >>= fun text => pure (Predicate.test (s text))) = .ok p) ↔
        ∀ g, op.geometry? v = some g → g.HasJson := by
    rw [exists_bind_iff, exists_geometryText_iff, hop]
    simp
  have hlisted {items : List Value} (hitems : v.items? = some items) :
      ∃ vs, Outcome.ofDefect v.elements = .ok vs := by
    cases v with
    | list vs | tuple vs => exact ⟨vs, rfl⟩
    | _ => cases hitems
  cases op with
  | contains | icontains | ncontains | startsWith | endsWith | nstartsWith | nendsWith =>
      cases v with
      | text s => exact hother rfl ⟨_, rfl⟩
      | _ => cases hshape
  | isIn | notIn =>
      refine hother rfl ?_
      cases hitems : v.items? with
      | none => simp [Operator.shape, Shape.accepts, hitems] at hshape
      | some items =>
          simp only [operatorPredicate]
          split
          · exact exists_bind_iff.2 (hlisted hitems)
          · exact ⟨_, rfl⟩
  | between | nbetween =>
      refine hother rfl ?_
      cases v with
      | list vs | tuple vs =>
          rcases vs with _ | ⟨low, _ | ⟨high, rest⟩⟩
          · cases hshape
          · cases hshape
          · exact ⟨_, rfl⟩
      | _ => cases hshape
  | jsonHasAnyKeys | jsonHasAllKeys =>
      refine hother rfl ?_
      cases hitems : v.items? with
      | none => simp [Operator.shape, Shape.accepts, hitems] at hshape
      | some items => exact exists_bind_iff.2 (hlisted hitems)
  | within | containsGeo | intersects | overlaps | nIntersects => exact hspatial rfl
  | dwithin =>
      cases v with
      | record entries =>
          obtain ⟨b, hgeometry, hdistance⟩ := Outcome.bind_eq_ok.1 hshape
          cases b with
          | false => cases hdistance
          | true =>
              have hdistance : (Record.get entries "distance").isDistance = true :=
                Except.ok.inj hdistance
              have hg : member (.record entries) "geometry" =
                  .ok (Record.get entries "geometry") := by
                refine member_eq_ok fun hnull => ?_
                rw [hnull] at hgeometry
                cases hgeometry
              have hd : member (.record entries) "distance" =
                  .ok (Record.get entries "distance") := by
                refine member_eq_ok fun hnull => ?_
                rw [hnull] at hdistance
                cases hdistance
              simp only [operatorPredicate, hg, hd]
              show (∃ p, (geometryText (Record.get entries "geometry") >>= fun text =>
                pure (Predicate.test (.near o text (Record.get entries "distance")))) = .ok p) ↔ _
              rw [exists_bind_iff, exists_geometryText_iff]
              simp [Operator.geometry?]
      | _ => cases hshape
  | _ => exact hother rfl ⟨_, rfl⟩

/-! ## Paths -/

/-- A path that can be followed leads through the target of its first relation. -/
theorem exists_targetOf_of_follow {path : List String}
    (h : k.follow c (name :: path) = .ok target) :
    ∃ middle, Selection.targetOf k c name = .ok middle ∧ k.follow middle path = .ok target := by
  rw [Catalog.follow] at h
  split at h
  case h_1 => exact absurd h (Outcome.refuse_ne_ok _ _)
  case h_2 r hr =>
    split at h
    case h_1 => exact absurd h (Outcome.refuse_ne_ok _ _)
    case h_2 middle hmiddle => exact ⟨middle, Selection.targetOf_eq_ok.2 ⟨r, hr, hmiddle⟩, h⟩

variable {condition : Condition}

/-- A condition on a field has a predicate iff its geometry has a JSON text. -/
theorem exists_fieldPredicate_iff {row : Alias} {f : Field} (hf : c.field? name = some f)
    (hcast : ∀ cast, condition.cast = some cast → (castFamily? cast).isSome = true)
    (hvalue : condition.operator.checkValue condition.value condition.field = .ok ()) :
    (∃ p, fieldPredicate c row name condition = .ok p) ↔ condition.Writable := by
  simp only [fieldPredicate, hf]
  cases hc : condition.cast with
  | none => exact exists_operatorPredicate_iff hvalue
  | some cast =>
      simp only
      split
      case isTrue => exact exists_operatorPredicate_iff hvalue
      case isFalse =>
        obtain ⟨family, hfamily⟩ := Option.isSome_iff_exists.1 (hcast cast hc)
        simp only [hfamily]
        exact exists_operatorPredicate_iff hvalue

/-- A condition at the end of a path has a predicate iff its geometry has a JSON text. -/
theorem gives_pathPredicate_iff (hk : k.Keyed) {path : List String} (hpath : path ≠ [])
    (hc : c ∈ k.collections) (hfollow : k.follow c path.dropLast = .ok target) {f : Field}
    (hf : target.field? (path.getLast?.getD "") = some f)
    (hcast : ∀ cast, condition.cast = some cast → (castFamily? cast).isSome = true)
    (hvalue : condition.operator.checkValue condition.value condition.field = .ok ())
    {row : Alias} :
    (pathPredicate k condition path c row).Gives n ↔ condition.Writable := by
  induction path generalizing c row n with
  | nil => exact absurd rfl hpath
  | cons name rest ih =>
      cases rest with
      | nil =>
          cases hfollow
          exact Build.gives_lift.trans (exists_fieldPredicate_iff hf hcast hvalue)
      | cons next rest =>
          obtain ⟨middle, hreached, hfollow⟩ := exists_targetOf_of_follow hfollow
          have hmiddle := Selection.mem_collections_of_targetOf hreached
          have hjoins : (joinRelation k c row name).Gives n := gives_joinRelation hk hc hreached
          rw [pathPredicate, Build.gives_bind (iff_of_true hjoins trivial), true_and]
          · rintro ⟨j, t⟩ l hjoin
            obtain ⟨ht, -, -⟩ := exists_relation_of_joinRelation hjoin
            obtain rfl := Except.ok.inj (hreached.symm.trans ht)
            rw [Build.gives_bind_pure, ih (List.cons_ne_nil _ _) hmiddle hfollow hf]
          · exact List.cons_ne_nil next rest

/-! ## Filters -/

/-- A valid condition has a predicate iff its geometry has a JSON text. -/
theorem gives_leaf_iff (hk : k.Keyed) (hc : k.find? c.name = some c)
    (hvalid : condition.Valid k c.name) {row : Alias} :
    ((Filter.leaf condition).predicate k c row).Gives n ↔ condition.Writable := by
  obtain ⟨type, family, htype, -, -⟩ := hvalid.operator
  have hfind : k.find c.name = .ok c := by rw [Catalog.find, hc]
  simp only [Catalog.fieldType, hfind, Outcome.bind_eq_ok, Except.ok.injEq,
    exists_eq_left'] at htype
  obtain ⟨target, hfollow, htype⟩ := htype
  rw [Filter.predicate]
  split at htype
  case h_1 f hf =>
    have hmem : c ∈ k.collections := List.mem_of_find?_eq_some hc
    exact gives_pathPredicate_iff hk (Text.split_ne_nil '.' _) hmem hfollow hf hvalid.cast
      hvalid.value
  case h_2 =>
    split at htype
    · exact absurd htype (Outcome.refuse_ne_ok _ _)
    · exact absurd htype (Outcome.refuse_ne_ok _ _)

/-- Filters have predicates iff each of them does. -/
theorem gives_predicates_iff {fs : List Filter} {row : Alias}
    (h : ∀ f ∈ fs, ∀ n, (f.predicate k c row).Gives n ↔ ∀ b ∈ f.conditions, b.Writable) :
    (Filter.predicates k c row fs).Gives n ↔ ∀ b ∈ Filter.conditionsOf fs, b.Writable := by
  induction fs generalizing n with
  | nil =>
      rw [Filter.predicates]
      exact iff_of_true (Build.gives_pure _ _) (List.forall_mem_nil _)
  | cons f fs ih =>
      obtain ⟨hf, hfs⟩ := List.forall_mem_cons.1 h
      rw [Filter.predicates, Filter.conditionsOf, List.forall_mem_append]
      exact Build.gives_bind (hf n) fun _ _ _ => Build.gives_bind_pure.trans (ih hfs)

/-- A filter of valid conditions has a predicate iff all geometries in it have JSON texts. -/
theorem gives_predicate_iff (hk : k.Keyed) (hc : k.find? c.name = some c) {f : Filter}
    (hvalid : ∀ b ∈ f.conditions, b.Valid k c.name) {row : Alias} :
    (f.predicate k c row).Gives n ↔ ∀ b ∈ f.conditions, b.Writable := by
  induction f generalizing n with
  | leaf condition =>
      rw [gives_leaf_iff hk hc (hvalid condition (List.mem_singleton.2 rfl))]
      exact (List.forall_mem_singleton).symm
  | conj fs ih =>
      rw [Filter.predicate, Build.gives_bind_pure]
      exact gives_predicates_iff fun f hf n =>
        ih f hf fun b hb => hvalid b (Filter.mem_conditions_conj.2 ⟨f, hf, hb⟩)
  | disj fs ih =>
      rw [Filter.predicate, Build.gives_bind_pure]
      exact gives_predicates_iff fun f hf n =>
        ih f hf fun b hb => hvalid b (Filter.mem_conditions_disj.2 ⟨f, hf, hb⟩)
  | neg f ih =>
      rw [Filter.predicate, Build.gives_bind_pure]
      exact ih hvalid
  | all | none =>
      rw [Filter.predicate]
      exact iff_of_true (Build.gives_pure _ _) (List.forall_mem_nil _)

/-! ## Conditions on related rows -/

/-- The conditions behind a relation are valid there: the relation is declared, and the conditions
are valid for its target, whether that is declared or not. -/
def ValidBehind (k : Catalog) (c : Collection) (entry : String × Filter) : Prop :=
  ∃ relation, c.relation? entry.1 = some relation ∧
    ∀ b ∈ entry.2.conditions, b.Valid k relation.target

/-- What conditions on related rows need to be written: the target of the relation, unless nothing
is asked for, and JSON texts of all geometries. -/
structure WritableBehind (k : Catalog) (c : Collection) (entry : String × Filter) : Prop where
  /-- The target is declared. -/
  target : entry.2.isAll = false → ∃ target, Selection.targetOf k c entry.1 = .ok target
  /-- All geometries have JSON texts. -/
  conditions : ∀ b ∈ entry.2.conditions, b.Writable

/-- Conditions on related rows are valid for the target of the relation. -/
theorem ValidBehind.valid {entry : String × Filter} (h : ValidBehind k c entry)
    (htarget : Selection.targetOf k c entry.1 = .ok target) :
    k.find? target.name = some target ∧ ∀ b ∈ entry.2.conditions, b.Valid k target.name := by
  obtain ⟨relation, hrelation, hvalid⟩ := h
  obtain ⟨r, hr, hfound⟩ := Selection.targetOf_eq_ok.1 htarget
  obtain rfl := Option.some.inj (hrelation.symm.trans hr)
  have hname : target.name = relation.target := by simpa using List.find?_some hfound
  rw [hname]
  exact ⟨hfound, hvalid⟩

/-- Behind a declared target, valid conditions have a predicate iff all geometries have JSON
texts. -/
theorem gives_behind_iff (hk : k.Keyed) {entry : String × Filter} (h : ValidBehind k c entry)
    (htarget : Selection.targetOf k c entry.1 = .ok target) {row : Alias} :
    (entry.2.predicate k target row).Gives n ↔ ∀ b ∈ entry.2.conditions, b.Writable := by
  obtain ⟨hfound, hvalid⟩ := h.valid htarget
  exact gives_predicate_iff hk hfound hvalid

/-- Conditions on related rows have predicates iff all that is asked for can be written. -/
theorem gives_relationPredicates_iff (hk : k.Keyed) (hc : c ∈ k.collections)
    {related : Named Filter} (hvalid : ∀ entry ∈ related, ValidBehind k c entry) :
    (relationPredicates k c related).Gives n ↔ ∀ entry ∈ related, WritableBehind k c entry := by
  induction related generalizing n with
  | nil => exact iff_of_true (Build.gives_pure _ _) (List.forall_mem_nil _)
  | cons entry related ih =>
      obtain ⟨name, f⟩ := entry
      obtain ⟨hentry, hrelated⟩ := List.forall_mem_cons.1 hvalid
      rw [relationPredicates, List.forall_mem_cons]
      cases hall : f.isAll with
      | true =>
          -- nothing is asked for behind the relation
          have hfree : WritableBehind k c (name, f) := by
            cases f with
            | all =>
                refine ⟨fun h => ?_, List.forall_mem_nil _⟩
                cases h
            | _ => cases hall
          rw [if_pos rfl, ih hrelated]
          exact (and_iff_right hfree).symm
      | false =>
          rw [if_neg Bool.false_ne_true]
          constructor
          · rintro ⟨ps, m, h⟩
            obtain ⟨⟨j, target⟩, l, hjoin, h⟩ := Build.bind_eq_ok.1 h
            obtain ⟨p, l', hp, h⟩ := Build.bind_eq_ok.1 h
            obtain ⟨ps', l'', hps, -⟩ := Build.bind_eq_ok.1 h
            obtain ⟨htarget, -, -⟩ := exists_relation_of_joinRelation hjoin
            exact ⟨⟨fun _ => ⟨target, htarget⟩, (gives_behind_iff hk hentry htarget).1 ⟨p, l', hp⟩⟩,
              (ih hrelated).1 ⟨ps', l'', hps⟩⟩
          · rintro ⟨hwritable, hrest⟩
            obtain ⟨target, htarget⟩ := hwritable.target hall
            refine (gives_joinRelation hk hc htarget).bind ?_
            rintro ⟨j, target'⟩ l hjoin
            obtain ⟨htarget', -, -⟩ := exists_relation_of_joinRelation hjoin
            refine ((gives_behind_iff hk hentry htarget').2 hwritable.conditions).bind ?_
            exact fun _ _ _ => Build.gives_bind_pure.2 ((ih hrelated).2 hrest)

/-! ## Selections and orders -/

/-- A selection that fits has outputs, if the conditions on related rows have predicates. -/
theorem gives_selectionOutputs (hk : k.Keyed) {s : Selection} (hfits : s.Fits k c)
    (hc : c ∈ k.collections) {related : Named Filter}
    (hrelated : ∀ name f, Named.find? related name = some f → ∀ target,
      Selection.targetOf k c name = .ok target → ∀ row n, (f.predicate k target row).Gives n)
    {row : Alias} : (selectionOutputs k c row related s).Gives n := by
  induction hfits generalizing related row n with
  | @intro c s hcolumns hreached hbehind ih =>
      obtain ⟨columns, relations⟩ := s
      rw [selectionOutputs, Build.gives_bind_pure]
      replace hreached : ∀ entry ∈ relations,
          ∃ target, Selection.targetOf k c entry.1 = .ok target := hreached
      replace ih : ∀ entry ∈ relations, ∀ target, Selection.targetOf k c entry.1 = .ok target →
          ∀ row n, (selectionOutputs k target row [] entry.2).Gives n := by
        -- no conditions are asked for further down
        intro entry hentry target htarget row n
        refine ih entry hentry target htarget (Selection.mem_collections_of_targetOf htarget) ?_
        exact fun _ _ h => by cases h
      clear hbehind hcolumns
      induction relations generalizing n with
      | nil => exact Build.gives_pure _ _
      | cons entry relations ihr =>
          obtain ⟨name, s⟩ := entry
          obtain ⟨⟨target, htarget⟩, hreached⟩ := List.forall_mem_cons.1 hreached
          obtain ⟨hfirst, ih⟩ := List.forall_mem_cons.1 ih
          obtain ⟨r, hr, -⟩ := Selection.targetOf_eq_ok.1 htarget
          rw [relationOutputs, hr]
          refine (gives_joinRelation hk hc htarget).bind ?_
          rintro ⟨j, target'⟩ l hjoin
          obtain ⟨htarget', -, -⟩ := exists_relation_of_joinRelation hjoin
          refine (hfirst target' htarget' _ _).bind fun _ _ _ => ?_
          have hrest (n : Alias) : (relationOutputs k c row related relations).Gives n :=
            ihr hreached ih
          cases hf : Named.find? related name with
          | none => exact (Build.gives_pure _ _).bind fun _ _ _ => Build.gives_bind_pure.2 (hrest _)
          | some f =>
              simp only
              split
              · exact (Build.gives_pure _ _).bind fun _ _ _ => Build.gives_bind_pure.2 (hrest _)
              · refine (Build.gives_map.2 (hrelated name f hf target' htarget' _ _)).bind ?_
                exact fun _ _ _ => Build.gives_bind_pure.2 (hrest _)

/-- A sort path that can be followed leads through the target of its first relation. -/
theorem exists_targetOf_of_followSort {path : List String}
    (h : Request.followSort k c (name :: path) = .ok target) :
    ∃ middle, Selection.targetOf k c name = .ok middle ∧
      Request.followSort k middle path = .ok target := by
  rw [Request.followSort] at h
  split at h
  case h_1 => exact absurd h (Outcome.refuse_ne_ok _ _)
  case h_2 r hr =>
    split at h
    case isFalse => exact absurd h (Outcome.refuse_ne_ok _ _)
    case isTrue =>
      split at h
      case h_1 => exact absurd h (Outcome.refuse_ne_ok _ _)
      case h_2 middle hmiddle => exact ⟨middle, Selection.targetOf_eq_ok.2 ⟨r, hr, hmiddle⟩, h⟩

/-- A sort path that can be followed leads to a column. -/
theorem gives_sorting (hk : k.Keyed) (hc : c ∈ k.collections) {path : List String}
    (h : Request.followSort k c path.dropLast = .ok target) {row : Alias} :
    (sorting k path c row).Gives n := by
  induction path generalizing c row n with
  | nil => exact Build.gives_pure _ _
  | cons name rest ih =>
      cases rest with
      | nil => exact Build.gives_pure _ _
      | cons next rest =>
          obtain ⟨middle, hreached, hfollow⟩ := exists_targetOf_of_followSort h
          have hmiddle := Selection.mem_collections_of_targetOf hreached
          rw [sorting]
          · refine (gives_joinRelation hk hc hreached).bind ?_
            rintro ⟨j, t⟩ l hjoin
            obtain ⟨ht, -, -⟩ := exists_relation_of_joinRelation hjoin
            obtain rfl := Except.ok.inj (hreached.symm.trans ht)
            exact Build.gives_bind_pure.2 (ih hmiddle hfollow)
          · exact List.cons_ne_nil next rest

/-- Sort keys that passed the check have an order. -/
theorem gives_sortOrders {reader : FilterReader} (hk : reader.catalog.Keyed)
    (hc : c ∈ reader.catalog.collections) {sort : List SortKey}
    (h : ∀ key ∈ sort, Request.checkSort reader c key.field = .ok ()) :
    (sortOrders reader.catalog c sort).Gives n := by
  induction sort generalizing n with
  | nil => exact Build.gives_pure _ _
  | cons key sort ih =>
      obtain ⟨hkey, hsort⟩ := List.forall_mem_cons.1 h
      simp only [Request.checkSort] at hkey
      split at hkey
      · exact absurd hkey (Outcome.refuse_ne_ok _ _)
      obtain ⟨target, hfollow, -⟩ := Outcome.bind_eq_ok.1 hkey
      rw [sortOrders]
      refine (gives_sorting hk hc hfollow).bind fun _ _ _ => ?_
      exact Build.gives_bind_pure.2 (ih hsort)

end Sql

/-- The order of a plan for rows is by sort keys that passed the check. -/
theorem Request.checkSort_of_mem_planSort {reader : FilterReader} {a : Allowlist}
    {sort kept : List SortKey} (h : planSort reader c a sort = .ok kept) {key : SortKey}
    (hkey : key ∈ kept) : checkSort reader c key.field = .ok () := by
  induction sort generalizing kept with
  | nil =>
      cases h
      cases hkey
  | cons first sort ih =>
      obtain ⟨_, hfirst, h⟩ := Outcome.bind_eq_ok.1 h
      split at h
      case isTrue =>
        obtain ⟨rest, hrest, h⟩ := Outcome.bind_eq_ok.1 h
        obtain rfl := Outcome.pure_eq_ok.1 h
        rcases List.mem_cons.1 hkey with rfl | hkey
        · exact hfirst
        · exact ih hrest hkey
      case isFalse => exact ih h hkey

/-! ## Plans -/

/-- Everything in the conditions of a plan can be written: all geometries have JSON texts, and where
something is asked of related rows, the target of the relation is declared. -/
structure Plan.Writable (p : Plan) (k : Catalog) : Prop where
  /-- The geometries in conditions on rows. -/
  conditions : ∀ b ∈ p.filter.conditions, b.Writable
  /-- The geometries in conditions on related rows. -/
  related : ∀ entry ∈ p.relConditions, ∀ b ∈ entry.2.conditions, b.Writable
  /-- The targets of relations. -/
  targets : ∀ entry ∈ p.relConditions, entry.2.isAll = false →
    ∃ r target, k.relation? p.collection entry.1 = some r ∧ k.find? r.target = some target

/-- What a plan for rows, or for aggregates, has passed in the making: its conditions are valid, and
what is selected and sorted by is there. -/
structure Plan.Sound (p : Plan) (k : Catalog) (c : Collection) : Prop where
  /-- The plan is for the collection. -/
  collection : p.collection = c.name
  /-- The conditions are valid. -/
  valid : p.Valid k
  /-- The selection fits. -/
  selection : p.isAggregate = false → p.selection.Fits k c
  /-- The sort keys have an order. -/
  sort : p.isAggregate = false → ∀ n, (sortOrders k c p.sort).Gives n

namespace Plan

variable {p : Plan}

/-- What can be written is what the conditions on rows and on related rows ask for. -/
theorem writable_iff (hc : k.find? c.name = some c) (hcollection : p.collection = c.name) :
    p.Writable k ↔ (∀ b ∈ p.filter.conditions, b.Writable) ∧
      ∀ entry ∈ p.relConditions, WritableBehind k c entry := by
  have hrelation (name : String) : k.relation? p.collection name = c.relation? name := by
    rw [hcollection, Catalog.relation?, hc]
    rfl
  have htargets (name : String) : (∃ target, Selection.targetOf k c name = .ok target) ↔
      ∃ r target, k.relation? p.collection name = some r ∧ k.find? r.target = some target := by
    simp only [Selection.targetOf_eq_ok, hrelation]
    exact exists_comm
  constructor
  · rintro ⟨hconditions, hrelated, hreached⟩
    exact ⟨hconditions, fun entry he =>
      ⟨fun hall => (htargets _).2 (hreached entry he hall), hrelated entry he⟩⟩
  · rintro ⟨hconditions, hbehind⟩
    exact ⟨hconditions, fun entry he => (hbehind entry he).conditions, fun entry he hall =>
      (htargets _).1 ((hbehind entry he).target hall)⟩

/-- The conditions of a sound plan on related rows are valid behind their relations. -/
theorem Sound.validBehind (hc : k.find? c.name = some c) (hp : p.Sound k c) :
    ∀ entry ∈ p.relConditions, ValidBehind k c entry := by
  rintro ⟨name, f⟩ hentry
  obtain ⟨r, hr, hvalid⟩ := hp.valid.relConditions name f hentry
  rw [hp.collection, Catalog.relation?, hc] at hr
  exact ⟨r, hr, hvalid⟩

/-- The conditions of a sound plan have predicates iff all in them can be written. -/
theorem gives_conditions_iff (hk : k.Keyed) (hc : k.find? c.name = some c) (hp : p.Sound k c) :
    (p.conditions k c).Gives n ↔ p.Writable k := by
  have hvalid : ∀ b ∈ p.filter.conditions, b.Valid k c.name := by
    rw [← hp.collection]
    exact hp.valid.filter
  rw [writable_iff hc hp.collection, conditions]
  refine Build.gives_bind (gives_predicate_iff hk hc hvalid) fun _ _ _ => ?_
  exact Build.gives_bind_pure.trans
    (gives_relationPredicates_iff hk (List.mem_of_find?_eq_some hc) (hp.validBehind hc))

/-- Where all conditions can be written, those on a row behind a relation have predicates. -/
theorem gives_related (hk : k.Keyed) (hc : k.find? c.name = some c) (hp : p.Sound k c)
    (hw : p.Writable k) {name : String} {f : Filter}
    (hf : Named.find? p.relConditions name = some f)
    (htarget : Selection.targetOf k c name = .ok target) (row : Alias) :
    (f.predicate k target row).Gives n := by
  have hentry := Named.mem_of_find? hf
  exact (gives_behind_iff hk (hp.validBehind hc _ hentry) htarget).2 (hw.related _ hentry)

/-- A sound plan in which all can be written has a statement that reads its rows. -/
theorem exists_select (hk : k.Keyed) (hc : k.find? c.name = some c) (hp : p.Sound k c)
    (hw : p.Writable k) : ∃ s, p.select k = .ok s := by
  have hfind : k.find p.collection = .ok c := by rw [hp.collection, Catalog.find, hc]
  have hconditions (n : Alias) : (p.conditions k c).Gives n := (gives_conditions_iff hk hc hp).2 hw
  suffices hbuild : ∃ s m, (if p.isAggregate = true then _ else _ : Build Select) baseAlias =
      .ok (s, m) by
    obtain ⟨s, m, hs⟩ := hbuild
    exact ⟨s, Outcome.bind_eq_ok.2 ⟨c, hfind, Outcome.bind_eq_ok.2 ⟨(s, m), hs, rfl⟩⟩⟩
  cases hkind : p.isAggregate with
  | true =>
      rw [if_pos rfl]
      exact Build.gives_bind_pure.2 (hconditions _)
  | false =>
      rw [if_neg Bool.false_ne_true]
      have houtputs :
          (selectionOutputs k c baseAlias p.relConditions p.selection).Gives baseAlias :=
        gives_selectionOutputs hk (hp.selection hkind) (List.mem_of_find?_eq_some hc)
          fun name f hf target htarget row n => gives_related hk hc hp hw hf htarget row
      refine houtputs.bind fun _ _ _ => (hconditions _).bind fun _ _ _ => ?_
      exact Build.gives_bind_pure.2 (Build.gives_bind_pure.2 (hp.sort hkind _))

/-- A sound plan in which all can be written has a statement that counts its rows. -/
theorem exists_count (hk : k.Keyed) (hc : k.find? c.name = some c) (hp : p.Sound k c)
    (hw : p.Writable k) : ∃ s, p.count k = .ok s := by
  have hfind : k.find p.collection = .ok c := by rw [hp.collection, Catalog.find, hc]
  have hconditions : (p.conditions k c).Gives baseAlias := (gives_conditions_iff hk hc hp).2 hw
  obtain ⟨ps, m, hps⟩ := hconditions
  rw [count, hfind]
  cases hone : p.isAggregate && p.groupBy.isEmpty with
  | true => exact ⟨.one, rfl⟩
  | false => exact ⟨_, Outcome.bind_eq_ok.2 ⟨c, rfl, Outcome.bind_eq_ok.2 ⟨(ps, m), hps, rfl⟩⟩⟩

/-- A sound plan has statements that read and count its rows iff all in its conditions can be
written. -/
theorem select_and_count_iff (hk : k.Keyed) (hc : k.find? c.name = some c) (hp : p.Sound k c) :
    ((∃ s, p.select k = .ok s) ∧ ∃ s, p.count k = .ok s) ↔ p.Writable k := by
  constructor
  · rintro ⟨⟨s, hs⟩, -⟩
    have hfind : k.find p.collection = .ok c := by rw [hp.collection, Catalog.find, hc]
    obtain ⟨-, n, m, hconditions⟩ := exists_of_select hfind hs
    exact (gives_conditions_iff hk hc hp).1 ⟨_, _, hconditions⟩
  · exact fun hw => ⟨exists_select hk hc hp hw, exists_count hk hc hp hw⟩

end Plan

/-- A finished plan is sound. -/
theorem Request.exists_sound_of_plan {r : Request} {reader : FilterReader} {grant : Grant}
    {resolver : Resolver} {p : Plan} (hk : reader.catalog.Keyed)
    (hgrant : grant.ReadFrom reader.catalog r.collection)
    (h : r.plan reader grant resolver = .ok p) :
    ∃ c : Collection, reader.catalog.find? c.name = some c ∧ p.Sound reader.catalog c := by
  have hvalid := plan_conditions_valid hgrant h
  cases hd : grant.denied with
  | true =>
      obtain ⟨c, hc, rfl⟩ := plan_of_denied hd h
      refine ⟨c, Catalog.name_of_find hc ▸ Catalog.find?_of_find hc, rfl, hvalid, fun _ => ?_,
        fun _ _ => Build.gives_pure _ _⟩
      exact .intro (List.forall_mem_nil _) (List.forall_mem_nil _) (List.forall_mem_nil _)
  | false =>
      obtain ⟨c, f, related, hc, hp⟩ := made_of_plan hd h
      have hfound := Catalog.name_of_find hc ▸ Catalog.find?_of_find hc
      refine ⟨c, hfound, hp.collection, hvalid, fun hkind => ?_, fun hkind n => ?_⟩
      · obtain ⟨c', s, hfound', hcollection, -, hfits, hselection⟩ :=
          exists_fits_of_plan (hp.isAggregate_eq ▸ hkind) h
        rw [← hcollection, hp.collection] at hfound'
        obtain rfl := Option.some.inj (hfound.symm.trans hfound')
        rw [hselection]
        exact hfits.restrict _
      · have hsort := hp.sort
        rw [planOrder, ← hp.isAggregate_eq, hkind] at hsort
        exact gives_sortOrders hk (List.mem_of_find?_eq_some hfound) fun key hkey =>
          checkSort_of_mem_planSort hsort hkey

/-- **A plan has the statements that read and count its rows iff everything in its conditions can be
written**: all geometries have JSON texts, and where something is asked of related rows, the target
of the relation is declared. Nothing else that the statements need can be missing, whatever the
definitions, the request, the grant and the caller. -/
theorem select_and_count_exist_iff {definitions : Record} {maxDepth : Int} {r : Request}
    {grant : Grant} {resolver : Resolver} {p : Plan}
    (hk : Catalog.ofDefinitions definitions = .ok k)
    (hgrant : grant = .admin ∨ ∃ (s : Snapshot) (caller : Caller) (action : Action),
      s.grant ⟨k, maxDepth⟩ caller r.collection action = .ok grant)
    (h : r.plan ⟨k, maxDepth⟩ grant resolver = .ok p) :
    ((∃ s, p.select k = .ok s) ∧ ∃ s, p.count k = .ok s) ↔ p.Writable k := by
  have hkeyed := Catalog.keyed_of_ofDefinitions hk
  have hread : grant.ReadFrom k r.collection := by
    rcases hgrant with rfl | ⟨s, caller, action, hgranted⟩
    · constructor <;> simp [Grant.admin]
    · exact Snapshot.readFrom_grant hgranted
  obtain ⟨c, hc, hp⟩ := Request.exists_sound_of_plan hkeyed hread h
  exact Plan.select_and_count_iff hkeyed hc hp

namespace Sample

/-- The definition of posts with a place and comments, without a definition of the comments. -/
def placed : Record :=
  [("posts", .record [("fields", .record [
    ("id", .record [("type", .text "UUID"), ("primaryKey", .bool true)]),
    ("location", .record [("type", .text "Point")]),
    ("comments", .record [("relType", .text "O2M"), ("target", .text "comments"),
      ("foreignKey", .text "post_id")])])])]

/-- The posts with a place and comments. -/
def placedPosts : Collection where
  name := "posts"
  table := "posts"
  paranoid := false
  fields := [⟨"id", .uuid, true, true⟩, ⟨"location", .point, false, true⟩]
  relations := [⟨"comments", .oneToMany, "comments", some "post_id", none, none, none⟩]

theorem ofDefinitions_placed : Catalog.ofDefinitions placed = .ok ⟨[placedPosts]⟩ := by rfl

/-- A request for the posts at a place. -/
def within (coordinates : List Value) : Request :=
  { Request.all "posts" 10 with
    filter := .raw (.record [("location", .record [("within",
      .record [("type", .text "Point"), ("coordinates", .list coordinates)])])]) }

/-- A request for the posts with a comment for which one of no conditions holds. -/
def commented : Request :=
  { Request.all "posts" 10 with
    relConditions := [("comments", .raw (.record [("OR", .list [])]))] }

end Sample

/-- The posts at a place can be read and counted, although their comments are not declared. -/
theorem select_and_count_exist_placed : ∃ p,
    Catalog.ofDefinitions Sample.placed = .ok ⟨[Sample.placedPosts]⟩ ∧
    (Sample.within [.int 2, .int 1]).plan ⟨⟨[Sample.placedPosts]⟩, 7⟩ .admin Sample.resolver =
      .ok p ∧
    (∃ s, p.select ⟨[Sample.placedPosts]⟩ = .ok s) ∧
    (((∃ s, p.select ⟨[Sample.placedPosts]⟩ = .ok s) ∧
      ∃ s, p.count ⟨[Sample.placedPosts]⟩ = .ok s) ↔ p.Writable ⟨[Sample.placedPosts]⟩) := by
  obtain ⟨p, hp, hs⟩ : ∃ p, (Sample.within [.int 2, .int 1]).plan ⟨⟨[Sample.placedPosts]⟩, 7⟩
      .admin Sample.resolver = .ok p ∧ ∃ s, p.select ⟨[Sample.placedPosts]⟩ = .ok s :=
    ⟨_, rfl, _, rfl⟩
  exact ⟨p, Sample.ofDefinitions_placed, hp, hs,
    select_and_count_exist_iff Sample.ofDefinitions_placed (.inl rfl) hp⟩

/-- Two requests have plans and no statements: one asks for comments, which are not declared, by a
condition on no field of theirs, the other one for posts at a place with a variable in it. -/
theorem planned_and_not_written :
    Catalog.ofDefinitions Sample.placed = .ok ⟨[Sample.placedPosts]⟩ ∧
    (∃ p, Sample.commented.plan ⟨⟨[Sample.placedPosts]⟩, 7⟩ .admin Sample.resolver = .ok p ∧
      p.select ⟨[Sample.placedPosts]⟩ = refuse (.notFound .collection "comments") ∧
      p.count ⟨[Sample.placedPosts]⟩ = refuse (.notFound .collection "comments")) ∧
    ∃ p, (Sample.within [.text "$NOW", .int 1]).plan ⟨⟨[Sample.placedPosts]⟩, 7⟩ .admin
        Sample.resolver = .ok p ∧
      p.select ⟨[Sample.placedPosts]⟩ = breakOff .wrongKind ∧
      p.count ⟨[Sample.placedPosts]⟩ = breakOff .wrongKind :=
  ⟨Sample.ofDefinitions_placed, ⟨_, rfl, rfl, rfl⟩, _, rfl, rfl, rfl⟩

end Warden
