import Warden.Proofs.Filter.RoundTrip
import Warden.Proofs.Query.Validity
import Warden.Proofs.Sample
import Warden.Proofs.Schema.Reach

/-! # Filters nested under relations

A record under the name of a relation, or under a path of them, is read with that path in front of
every field. Whatever the reader looks up on the way, it looks up on the full path and from the
collection at hand; it finds the same as from the relation's target on what comes after the path.

* **`Filter.under`** puts a text in front of every field of a filter. It passes through the folding
  constructors (`conjoin_under`, `disjoin_under`, `negate_under`).
* **`FilterReader.Carries`** says that a reader below one path finds whatever another one finds
  below another path, and `Carries.readMembers` that it then reads the same filter, up to the texts
  in front: the results of every step are **`Twins`**. The induction is on the record, as the
  reader's own recursion.
* Both ways between a relation and its target are carried, up to the limit on relations: the nested
  record needs as many more as its path passes (`carries_out`, `carries_in`). So a nested record is
  read as the filter on the target with the path in front of its fields
  (**`nested_eq_dotted`**). -/

namespace Warden

namespace Filter

mutual

/-- The filter with a text in front of every field. -/
def under (base : String) : Filter → Filter
  | .leaf c => .leaf { c with field := base ++ c.field }
  | .conj fs => .conj (underAll base fs)
  | .disj fs => .disj (underAll base fs)
  | .neg f => .neg (under base f)
  | .all => .all
  | .none => .none

/-- The filters with a text in front of every field. -/
def underAll (base : String) : List Filter → List Filter
  | [] => []
  | f :: fs => under base f :: underAll base fs

end

variable {base : String}

theorem underAll_eq_map (fs : List Filter) : underAll base fs = fs.map (under base) := by
  induction fs with
  | nil => rfl
  | cons f fs ih => rw [underAll, ih, List.map_cons]

/-- Nothing in front changes nothing. -/
@[simp] theorem under_empty (f : Filter) : f.under "" = f := by
  have hall (fs : List Filter) (ih : ∀ f ∈ fs, f.under "" = f) : underAll "" fs = fs := by
    rw [underAll_eq_map]
    exact (List.map_congr_left ih).trans (List.map_id' fs)
  induction f with
  | leaf c => rw [under, String.empty_append]
  | conj fs ih => rw [under, hall fs ih]
  | disj fs ih => rw [under, hall fs ih]
  | neg f ih => rw [under, ih]
  | all | none => rfl

theorem map_under_empty (fs : List Filter) : fs.map (under "") = fs :=
  (List.map_congr_left fun f _ => under_empty f).trans (List.map_id' fs)

/-! ## Folding -/

@[simp] theorem isNone_under (f : Filter) : (f.under base).isNone = f.isNone := by
  cases f <;> rfl

@[simp] theorem isAll_under (f : Filter) : (f.under base).isAll = f.isAll := by
  cases f <;> rfl

theorem conjuncts_under (f : Filter) :
    (f.under base).conjuncts = f.conjuncts.map (under base) := by
  cases f with
  | conj fs => exact underAll_eq_map fs
  | _ => rfl

theorem disjuncts_under (f : Filter) :
    (f.under base).disjuncts = f.disjuncts.map (under base) := by
  cases f with
  | disj fs => exact underAll_eq_map fs
  | _ => rfl

theorem ofConjuncts_under (fs : List Filter) :
    ofConjuncts (fs.map (under base)) = (ofConjuncts fs).under base := by
  match fs with
  | [] => rfl
  | [f] => rfl
  | f :: g :: fs => exact congrArg conj (underAll_eq_map (f :: g :: fs)).symm

theorem ofDisjuncts_under (fs : List Filter) :
    ofDisjuncts (fs.map (under base)) = (ofDisjuncts fs).under base := by
  match fs with
  | [] => rfl
  | [f] => rfl
  | f :: g :: fs => exact congrArg disj (underAll_eq_map (f :: g :: fs)).symm

/-- Filters can be joined before or after a text is put in front of their fields. -/
theorem conjoin_under (fs : List Filter) :
    conjoin (fs.map (under base)) = (conjoin fs).under base := by
  have hnone : (fs.map (under base)).any isNone = fs.any isNone := by
    simp [Function.comp_def]
  have hconjuncts : (fs.map (under base)).flatMap conjuncts =
      (fs.flatMap conjuncts).map (under base) := by
    rw [List.flatMap_map, List.map_flatMap]
    exact List.flatMap_congr fun f _ => conjuncts_under f
  rw [conjoin, conjoin, hnone, hconjuncts, ofConjuncts_under]
  split <;> rfl

theorem disjoin_under (fs : List Filter) :
    disjoin (fs.map (under base)) = (disjoin fs).under base := by
  have hall : (fs.map (under base)).any isAll = fs.any isAll := by
    simp [Function.comp_def]
  have hdisjuncts : (fs.map (under base)).flatMap disjuncts =
      (fs.flatMap disjuncts).map (under base) := by
    rw [List.flatMap_map, List.map_flatMap]
    exact List.flatMap_congr fun f _ => disjuncts_under f
  rw [disjoin, disjoin, hall, hdisjuncts, ofDisjuncts_under]
  split <;> rfl

theorem negate_under (f : Filter) : negate (f.under base) = (negate f).under base := by
  cases f <;> rfl

end Filter

/-! ## Checks of operators and values

Their results do not depend on the field that they name when they refuse. -/

namespace Operator

theorem ofName_eq_ok {name field : String} {op : Operator} :
    ofName name field = .ok op ↔ ofName? name = some op := by
  rw [ofName]
  cases ofName? name with
  | none => exact iff_of_false (Outcome.refuse_ne_ok _ _) (Option.some_ne_none _).symm
  | some op' => rw [Except.ok.injEq, Option.some.injEq]

theorem checkValue_eq_ok {op : Operator} {v : Value} {field : String} :
    op.checkValue v field = .ok () ↔ op.shape.accepts v = .ok true := by
  rw [checkValue, Outcome.bind_eq_ok]
  constructor
  · rintro ⟨accepts, haccepts, h⟩
    rw [Outcome.lift_eq_ok] at haccepts
    cases accepts with
    | true => exact haccepts
    | false => exact absurd h (Outcome.refuse_ne_ok _ _)
  · intro h
    exact ⟨true, Outcome.lift_eq_ok.2 h, rfl⟩

end Operator

namespace FilterReader

variable {r s : FilterReader} {c d collection target base other way : String}

theorem readCast_congr {path path' : String} {members : Record} {cast : Option String}
    (h : readCast path members = .ok cast) : readCast path' members = .ok cast := by
  rw [readCast] at h ⊢
  split at h
  case h_1 => exact h
  case h_2 =>
    simp only at h ⊢
    split at h
    case isTrue hknown => rwa [if_pos hknown]
    case isFalse => exact absurd h (Outcome.refuse_ne_ok _ _)
  case h_3 => exact absurd h (Outcome.refuse_ne_ok _ _)

/-- The check of a condition passes iff its path is not too deep and the condition fits the catalog.
-/
theorem checkCondition_eq_ok {condition : Condition} :
    r.checkCondition collection condition = .ok () ↔
      r.checkDepth condition.field 0 = .ok () ∧ condition.Checked r.catalog collection := by
  constructor
  · intro h
    obtain ⟨_, hdepth, -⟩ := Outcome.bind_eq_ok.1 h
    exact ⟨hdepth, checked_of_checkCondition h⟩
  · rintro ⟨hdepth, hchecked⟩
    obtain ⟨type, family, htype, hfamily, happlies⟩ := hchecked.operator
    have hcompared : r.family collection condition = .ok family := by
      rw [FilterReader.family, htype]
      rw [Condition.family?] at hfamily
      cases hcast : condition.cast with
      | none =>
          rw [hcast] at hfamily
          exact congrArg Except.ok (Option.some.inj hfamily)
      | some cast =>
          rw [hcast] at hfamily
          have hnamed : castFamily? cast = some family := hfamily
          simp only [hnamed]
          rfl
    refine Outcome.bind_eq_ok.2 ⟨(), hdepth, Outcome.bind_eq_ok.2 ⟨family, hcompared,
      Outcome.bind_eq_ok.2 ⟨(), if_pos happlies, ?_⟩⟩⟩
    split
    case isTrue => rfl
    case isFalse hno => exact hchecked.value (Bool.eq_false_iff.2 hno)

end FilterReader

/-- What a condition needs of the catalog, it needs of the type of its field. -/
theorem Condition.Checked.congr {k k' : Catalog} {collection collection' field field' : String}
    {op : Operator} {v : Value} {cast : Option String}
    (h : Checked ⟨field, op, v, cast⟩ k collection)
    (htype : ∀ type, k.fieldType collection field = .ok type →
      k'.fieldType collection' field' = .ok type) :
    Checked ⟨field', op, v, cast⟩ k' collection' := by
  obtain ⟨type, family, hfield, hfamily, happlies⟩ := h.operator
  exact ⟨⟨h.cast, type, family, htype type hfield, hfamily, happlies⟩,
    fun hno => Operator.checkValue_eq_ok.2 (Operator.checkValue_eq_ok.1 (h.value hno))⟩

namespace FilterReader

/-! ## Computations that give twins

What is made of one thing in two ways are twins. The results of two computations are twins if each
step gives twins, whatever the first one gives. -/

section Twins

variable {α β γ δ : Type} {u w : γ → α} {u' w' : δ → β} {x y : Outcome α} {f f' : α → Outcome β}

/-- Whatever the one computation gives, the other one gives the twin of it. -/
def Twins (u w : γ → α) (x y : Outcome α) : Prop :=
  ∀ a, x = .ok a → ∃ g, a = u g ∧ y = .ok (w g)

theorem twins_ok (g : γ) : Twins u w (.ok (u g)) (.ok (w g)) := by
  rintro _ ⟨⟩
  exact ⟨g, rfl, rfl⟩

theorem twins_refuse (reason : Refusal) : Twins u w (refuse reason) y :=
  fun _ h => absurd h (Outcome.refuse_ne_ok _ _)

theorem Twins.bind (h : Twins u w x y) (hf : ∀ g, Twins u' w' (f (u g)) (f' (w g))) :
    Twins u' w' (x >>= f) (y >>= f') := by
  intro b hb
  obtain ⟨_, hx, hb⟩ := Outcome.bind_eq_ok.1 hb
  obtain ⟨g, rfl, hy⟩ := h _ hx
  obtain ⟨g', rfl, hf'⟩ := hf g b hb
  exact ⟨g', rfl, Outcome.bind_eq_ok.2 ⟨_, hy, hf'⟩⟩

/-- A first step with the same result for both. -/
theorem twins_step {x y : Outcome γ} {f f' : γ → Outcome β} (h : ∀ g, x = .ok g → y = .ok g)
    (hf : ∀ g, Twins u' w' (f g) (f' g)) : Twins u' w' (x >>= f) (y >>= f') :=
  Twins.bind (u := id) (w := id) (fun g hg => ⟨g, rfl, h g hg⟩) hf

theorem Twins.map (h : Twins u w x y) {f : α → β} {m : γ → δ} (hu : ∀ g, f (u g) = u' (m g))
    (hw : ∀ g, f (w g) = w' (m g)) : Twins u' w' (x.map f) (y.map f) := by
  intro b hb
  obtain ⟨_, hx, rfl⟩ := Outcome.map_eq_ok.1 hb
  obtain ⟨g, rfl, hy⟩ := h _ hx
  exact ⟨m g, hu g, Outcome.map_eq_ok.2 ⟨_, hy, hw g⟩⟩

/-- A result in front of a list of results. -/
theorem Twins.cons (h : Twins u w x y) {xs ys : Outcome (List α)}
    (hs : Twins (List.map u) (List.map w) xs ys) :
    Twins (List.map u) (List.map w) (do
      let a ← x
      return a :: (← xs)) (do
      let a ← y
      return a :: (← ys)) :=
  h.bind fun g => hs.bind fun gs => twins_ok (g :: gs)

end Twins

/-! ## Reading below two paths -/

variable {r s : FilterReader} {c d base other : String}

/-- Below one path of the one collection, the reader `s` finds whatever the reader `r` finds below
another path of another collection. -/
structure Carries (r s : FilterReader) (c d base other : String) : Prop where
  /-- The same paths consist of relations. -/
  isRelationPath : ∀ path, r.isRelationPath c (Text.split '.' (base ++ path)) =
    s.isRelationPath d (Text.split '.' (other ++ path))
  /-- A relation that is not too deep for the one is not too deep for the other. -/
  checkDepth : ∀ path, r.checkDepth (base ++ path) 1 = .ok () →
    s.checkDepth (other ++ path) 1 = .ok ()
  /-- A condition that passes for the one passes for the other. -/
  checkCondition : ∀ path op v cast, r.checkCondition c ⟨base ++ path, op, v, cast⟩ = .ok () →
    s.checkCondition d ⟨other ++ path, op, v, cast⟩ = .ok ()

namespace Carries

open Warden.Filter (under)

theorem condition (H : Carries r s c d base other) (path : String) (op : Operator) (v : Value)
    (cast : Option String) :
    Twins (under base) (under other) (r.condition c (base ++ path) op v cast)
      (s.condition d (other ++ path) op v cast) :=
  twins_step (fun _ => H.checkCondition path op v cast) fun _ =>
    twins_ok (Filter.leaf ⟨path, op, v, cast⟩)

theorem operatorConditions (H : Carries r s c d base other) (path : String) (cast : Option String)
    (members : Record) :
    Twins (List.map (under base)) (List.map (under other))
      (r.operatorConditions c (base ++ path) cast members)
      (s.operatorConditions d (other ++ path) cast members) := by
  induction members with
  | nil => exact twins_ok []
  | cons member members ih =>
      obtain ⟨name, v⟩ := member
      rw [FilterReader.operatorConditions, FilterReader.operatorConditions]
      by_cases hcast : (name == castKey) = true
      · rw [if_pos hcast, if_pos hcast]
        exact ih
      · rw [if_neg hcast, if_neg hcast]
        by_cases hnull : (name == notNullKey) = true
        · rw [if_pos hnull, if_pos hnull]
          cases v with
          | bool b => exact (H.condition path .isNull (.bool !b) cast).cons ih
          | _ => exact twins_refuse _
        · rw [if_neg hnull, if_neg hnull]
          refine twins_step (fun op hop => ?_) fun op => (H.condition path op v cast).cons ih
          exact Operator.ofName_eq_ok.2 (Operator.ofName_eq_ok.1 hop)

theorem readOperators (H : Carries r s c d base other) (path : String) (members : Record) :
    Twins (under base) (under other) (r.readOperators c (base ++ path) members)
      (s.readOperators d (other ++ path) members) := by
  refine twins_step (fun cast => readCast_congr) fun cast =>
    (H.operatorConditions path cast members).bind fun gs => ?_
  rw [List.isEmpty_map, List.isEmpty_map, Filter.conjoin_under, Filter.conjoin_under]
  split
  case isTrue => exact twins_refuse _
  case isFalse => exact twins_ok (Filter.conjoin gs)

/-- The three connectives come first; any other name adds to the path. -/
theorem readMember {way : String} (name : String) {v : Value}
    (hlist : ∀ connective, Twins (List.map (under base)) (List.map (under other))
      (r.readList c (base ++ way) connective v) (s.readList d (other ++ way) connective v))
    (hnegation : Twins (under base) (under other) (r.readNegation c (base ++ way) v)
      (s.readNegation d (other ++ way) v))
    (hfield : Twins (under base) (under other) (r.readField c (base ++ (way ++ name)) v)
      (s.readField d (other ++ (way ++ name)) v)) :
    Twins (under base) (under other) (r.readMember c (base ++ way) name v)
      (s.readMember d (other ++ way) name v) := by
  rw [FilterReader.readMember, FilterReader.readMember, String.append_assoc, String.append_assoc]
  split
  · exact (hlist name).map Filter.conjoin_under Filter.conjoin_under
  · split
    · exact (hlist name).map Filter.disjoin_under Filter.disjoin_under
    · split
      · exact hnegation
      · exact hfield

mutual

/-- **What the one reads below its path, the other reads below the other path**, as the same filter
up to the texts in front of the fields. -/
theorem readMembers (H : Carries r s c d base other) (way : String)
    (entries : List (String × Value)) :
    Twins (List.map (under base)) (List.map (under other)) (r.readMembers c (base ++ way) entries)
      (s.readMembers d (other ++ way) entries) := by
  match entries with
  | [] => exact twins_ok []
  | (name, v) :: entries =>
      rw [readMembers_cons, readMembers_cons]
      split
      case isTrue => exact twins_refuse _
      case isFalse =>
        have hmember := readMember name (H.readList way v) (H.readNegation way v)
          (H.readField (way ++ name) v)
        exact hmember.cons (H.readMembers way entries)

theorem readList (H : Carries r s c d base other) (way : String) (v : Value) (connective : String) :
    Twins (List.map (under base)) (List.map (under other))
      (r.readList c (base ++ way) connective v) (s.readList d (other ++ way) connective v) := by
  cases v with
  | list items | tuple items => exact H.readItems way items connective
  | _ => exact twins_refuse _

theorem readItems (H : Carries r s c d base other) (way : String) (vs : List Value)
    (connective : String) :
    Twins (List.map (under base)) (List.map (under other))
      (r.readItems c (base ++ way) connective vs) (s.readItems d (other ++ way) connective vs) := by
  match vs with
  | [] => exact twins_ok []
  | v :: vs =>
      cases v with
      | record entries =>
          rw [readItems_cons, readItems_cons]
          have hrecord := (H.readMembers way entries).map Filter.conjoin_under Filter.conjoin_under
          exact hrecord.cons (H.readItems way vs connective)
      | _ => exact twins_refuse _

theorem readNegation (H : Carries r s c d base other) (way : String) (v : Value) :
    Twins (under base) (under other) (r.readNegation c (base ++ way) v)
      (s.readNegation d (other ++ way) v) := by
  cases v with
  | record entries =>
      refine (H.readMembers way entries).map (m := fun gs => .negate (.conjoin gs)) ?_ ?_
      · exact fun gs => by rw [Filter.conjoin_under, Filter.negate_under]
      · exact fun gs => by rw [Filter.conjoin_under, Filter.negate_under]
  | _ => exact twins_refuse _

theorem readField (H : Carries r s c d base other) (path : String) (v : Value) :
    Twins (under base) (under other) (r.readField c (base ++ path) v)
      (s.readField d (other ++ path) v) := by
  cases v with
  | record entries =>
      rw [FilterReader.readField, FilterReader.readField, ← H.isRelationPath path]
      split
      case isTrue => exact twins_refuse _
      case isFalse =>
        split
        case isTrue => exact H.readOperators path entries
        case isFalse =>
          split
          case isTrue =>
            rw [String.append_assoc, String.append_assoc]
            refine twins_step (fun _ => H.checkDepth path) fun _ =>
              (H.readMembers (path ++ ".") entries).bind fun gs => ?_
            rw [Filter.conjoin_under, Filter.conjoin_under]
            exact twins_ok (Filter.conjoin gs)
          case isFalse =>
            split
            · exact twins_refuse _
            · exact twins_refuse _
  | list items | tuple items => exact H.condition path .isIn (.list items) none
  | _ => exact H.condition path .eq _ none

end

end Carries

/-! ## Relations and their targets -/

variable {k : Catalog} {collection target way : String} {limit limit' : Int} {entries : Record}

theorem isRelationPath_eq (path : List String) :
    r.isRelationPath collection path = (r.catalog.reached? collection path).isSome := by
  induction path generalizing collection with
  | nil => rfl
  | cons segment path ih =>
      rw [isRelationPath, Catalog.reached?]
      cases r.catalog.relation? collection segment with
      | none => rfl
      | some relation => exact ih

theorem checkDepth_eq_ok {path : String} {extra : Nat} :
    r.checkDepth path extra = .ok () ↔ (depth path + extra : Int) ≤ r.maxDepth := by
  rw [checkDepth]
  split
  case isTrue h => exact iff_of_false (Outcome.refuse_ne_ok _ _) (Int.not_le.2 h)
  case isFalse h => exact iff_of_true rfl (Int.not_lt.1 h)

/-- A path that goes on after another one passes the relations of both, and the last of the first.
-/
theorem checkDepth_append_dot_eq_ok {path : String} {extra : Nat} :
    r.checkDepth (way ++ "." ++ path) extra = .ok () ↔
      (depth path + extra + (depth way + 1) : Int) ≤ r.maxDepth := by
  have hdepth : depth (way ++ "." ++ path) = depth path + (depth way + 1) := by
    simp only [depth, Text.countChar, String.toList_append, List.count_append]
    exact Nat.add_comm _ _
  rw [checkDepth_eq_ok, hdepth]
  push_cast
  rw [Int.add_right_comm]

/-- A relation path of the one collection goes on as relation paths of the other do. -/
theorem isRelationPath_append (h : k.reached? collection (Text.split '.' way) = some target)
    (path : String) : isRelationPath ⟨k, limit⟩ collection (Text.split '.' (way ++ "." ++ path)) =
      isRelationPath ⟨k, limit'⟩ target (Text.split '.' path) := by
  rw [isRelationPath_eq, isRelationPath_eq, Text.split_append_dot, Catalog.reached?_append, h]
  rfl

/-- What is found below a path of relations is found from its end, where fewer relations are left to
pass. -/
theorem carries_out (h : k.reached? collection (Text.split '.' way) = some target)
    (hlimit : limit ≤ limit' + (depth way + 1)) :
    Carries ⟨k, limit⟩ ⟨k, limit'⟩ collection target (way ++ ".") "" where
  isRelationPath path := by
    rw [String.empty_append]
    exact isRelationPath_append h path
  checkDepth path hdepth := by
    rw [String.empty_append]
    exact checkDepth_eq_ok.2
      (Int.le_of_add_le_add_right (Int.le_trans (checkDepth_append_dot_eq_ok.1 hdepth) hlimit))
  checkCondition path op v cast hcheck := by
    obtain ⟨hdepth, hchecked⟩ := checkCondition_eq_ok.1 hcheck
    rw [String.empty_append]
    exact checkCondition_eq_ok.2 ⟨checkDepth_eq_ok.2
      (Int.le_of_add_le_add_right (Int.le_trans (checkDepth_append_dot_eq_ok.1 hdepth) hlimit)),
      hchecked.congr fun type => (Catalog.fieldType_append_eq_ok h path).1⟩

/-- What is found from the end of a path of relations is found below it, where more relations may be
passed. -/
theorem carries_in (h : k.reached? collection (Text.split '.' way) = some target)
    (hlimit : limit' + (depth way + 1) ≤ limit) :
    Carries ⟨k, limit'⟩ ⟨k, limit⟩ target collection "" (way ++ ".") where
  isRelationPath path := by
    rw [String.empty_append]
    exact (isRelationPath_append h path).symm
  checkDepth path hdepth := by
    rw [String.empty_append] at hdepth
    exact checkDepth_append_dot_eq_ok.2
      (Int.le_trans (Int.add_le_add_right (checkDepth_eq_ok.1 hdepth) _) hlimit)
  checkCondition path op v cast hcheck := by
    rw [String.empty_append] at hcheck
    obtain ⟨hdepth, hchecked⟩ := checkCondition_eq_ok.1 hcheck
    exact checkCondition_eq_ok.2 ⟨checkDepth_append_dot_eq_ok.2
      (Int.le_trans (Int.add_le_add_right (checkDepth_eq_ok.1 hdepth) _) hlimit),
      hchecked.congr fun type => (Catalog.fieldType_append_eq_ok h path).2⟩

/-! ## Nested records -/

theorem parse_record_eq_ok {f : Option Filter} :
    r.parse collection (.raw (.record entries)) = .ok f ↔
      ∃ fs, r.readMembers collection "" entries = .ok fs ∧ f = some (.conjoin fs) := by
  constructor
  · intro h
    obtain ⟨g, hg, h⟩ := Outcome.bind_eq_ok.1 h
    obtain ⟨fs, hfs, hg⟩ := Outcome.bind_eq_ok.1 hg
    obtain rfl := Outcome.pure_eq_ok.1 hg
    exact ⟨fs, hfs, (Outcome.pure_eq_ok.1 h).symm⟩
  · rintro ⟨fs, hfs, rfl⟩
    exact Outcome.bind_eq_ok.2 ⟨_, Outcome.bind_eq_ok.2 ⟨fs, hfs, rfl⟩, rfl⟩

/-- A record without operators that stands under relations is read with their path in front. -/
theorem readField_of_isRelationPath {path : String} (hne : entries ≠ [])
    (hnames : ∀ entry ∈ entries, isOperatorKey entry.1 = false)
    (hpath : r.isRelationPath collection (Text.split '.' path) = true) :
    r.readField collection path (.record entries) = (do
      r.checkDepth path 1
      return Filter.conjoin (← r.readMembers collection (path ++ ".") entries)) := by
  have hany : entries.any (fun entry => isOperatorKey entry.1) = false :=
    List.any_eq_false.2 fun entry hentry => by simp [hnames entry hentry]
  have hall : ¬ entries.all (fun entry => isOperatorKey entry.1) = true := by
    intro hall
    obtain ⟨entry, hentry⟩ := List.exists_mem_of_ne_nil entries hne
    have htrue := List.all_eq_true.1 hall entry hentry
    rw [hnames entry hentry] at htrue
    cases htrue
  rw [readField, if_neg (by simpa using hne), if_neg hall, if_pos (by rw [hany, hpath]; rfl)]

/-- A record that holds nothing but a record under relations is read as that record is. -/
theorem parse_nested_eq_ok (hway : IsPath way) (hne : entries ≠ [])
    (hnames : ∀ entry ∈ entries, isOperatorKey entry.1 = false)
    (hpath : r.isRelationPath collection (Text.split '.' way) = true) {f : Option Filter} :
    r.parse collection (.raw (.record [(way, .record entries)])) = .ok f ↔
      r.checkDepth way 1 = .ok () ∧
        ∃ fs, r.readMembers collection (way ++ ".") entries = .ok fs ∧ f = some (.conjoin fs) := by
  have hmember : r.readMembers collection "" [(way, .record entries)] = (do
      r.checkDepth way 1
      return [Filter.conjoin (← r.readMembers collection (way ++ ".") entries)]) := by
    rw [readMembers_cons, if_neg (by simp [hway.nonempty]), readMember_of_isPath hway,
      String.empty_append, readField_of_isRelationPath hne hnames hpath]
    cases r.checkDepth way 1 with
    | error e => rfl
    | ok u => cases r.readMembers collection (way ++ ".") entries <;> rfl
  rw [parse_record_eq_ok, hmember]
  -- joining the joined members once more changes nothing
  have hfold {fs : List Filter} (hfs : r.readMembers collection (way ++ ".") entries = .ok fs) :
      Filter.conjoin [Filter.conjoin fs] = Filter.conjoin fs :=
    Filter.conjoin_singleton (Filter.normal_conjoin
      ((invariant_normal r collection).of_readMembers (isBase_dot way) entries hfs))
  constructor
  · rintro ⟨gs, hgs, rfl⟩
    obtain ⟨_, hdepth, hgs⟩ := Outcome.bind_eq_ok.1 hgs
    obtain ⟨fs, hfs, hgs⟩ := Outcome.bind_eq_ok.1 hgs
    obtain rfl := Outcome.pure_eq_ok.1 hgs
    exact ⟨hdepth, fs, hfs, congrArg some (hfold hfs)⟩
  · rintro ⟨hdepth, fs, hfs, rfl⟩
    exact ⟨_, Outcome.bind_eq_ok.2 ⟨(), hdepth, Outcome.bind_eq_ok.2 ⟨fs, hfs, rfl⟩⟩,
      congrArg some (hfold hfs).symm⟩

/-- **A record nested under relations is read as a filter on their target.** Under a path of
relations that is no connective and not empty, a record without operators at its top is read as on
the collection that the path leads to, with the path in front of every field. If more relations may
be passed than some number says, it is read exactly when it is read there. -/
theorem nested_eq_dotted {k : Catalog} {collection target way : String} {entries : Record}
    (hreach : k.reached? collection (Text.split '.' way) = some target) (hway : IsPath way)
    (hne : entries ≠ []) (hnames : ∀ entry ∈ entries, isOperatorKey entry.1 = false) :
    (∀ limit f, parse ⟨k, limit⟩ collection (.raw (.record [(way, .record entries)])) = .ok f →
      ∃ g : Filter, parse ⟨k, limit⟩ target (.raw (.record entries)) = .ok (some g) ∧
        f = some (g.under (way ++ "."))) ∧
    ∃ enough : Int, ∀ limit ≥ enough,
      ((∃ f, parse ⟨k, limit⟩ collection (.raw (.record [(way, .record entries)])) = .ok f) ↔
        ∃ f, parse ⟨k, limit⟩ target (.raw (.record entries)) = .ok f) := by
  have hpath (limit : Int) :
      isRelationPath ⟨k, limit⟩ collection (Text.split '.' way) = true := by
    rw [isRelationPath_eq, hreach]
    rfl
  have hout (limit : Int) (f : Option Filter)
      (h : parse ⟨k, limit⟩ collection (.raw (.record [(way, .record entries)])) = .ok f) :
      ∃ g : Filter, parse ⟨k, limit⟩ target (.raw (.record entries)) = .ok (some g) ∧
        f = some (g.under (way ++ ".")) := by
    obtain ⟨-, fs, hfs, rfl⟩ := (parse_nested_eq_ok hway hne hnames (hpath limit)).1 h
    have hcarries : Carries ⟨k, limit⟩ ⟨k, limit⟩ collection target (way ++ ".") "" :=
      carries_out hreach (by omega)
    obtain ⟨gs, rfl, hgs⟩ := hcarries.readMembers "" entries fs (by rwa [String.append_empty])
    refine ⟨.conjoin gs, parse_record_eq_ok.2 ⟨gs, ?_, rfl⟩,
      congrArg some (Filter.conjoin_under gs)⟩
    rwa [String.append_empty, Filter.map_under_empty] at hgs
  refine ⟨hout, ?_⟩
  by_cases hread : ∃ limit f, parse ⟨k, limit⟩ target (.raw (.record entries)) = .ok f
  case pos =>
    -- what is read there under some limit is read here with the relations of the path on top
    obtain ⟨least, f, h⟩ := hread
    refine ⟨max least 0 + (depth way + 1), fun limit hlimit => ⟨?_, fun _ => ?_⟩⟩
    · rintro ⟨f, h⟩
      obtain ⟨g, hg, -⟩ := hout limit f h
      exact ⟨some g, hg⟩
    · obtain ⟨fs, hfs, -⟩ := parse_record_eq_ok.1 h
      have hcarries : Carries ⟨k, least⟩ ⟨k, limit⟩ target collection "" (way ++ ".") :=
        carries_in hreach (by omega)
      obtain ⟨gs, -, hgs⟩ := hcarries.readMembers "" entries fs (by simpa using hfs)
      rw [String.append_empty] at hgs
      have hdepth : checkDepth ⟨k, limit⟩ way 1 = .ok () := by
        refine checkDepth_eq_ok.2 ?_
        show (depth way + 1 : Int) ≤ limit
        omega
      exact ⟨_, (parse_nested_eq_ok hway hne hnames (hpath limit)).2 ⟨hdepth, _, hgs, rfl⟩⟩
  case neg =>
    refine ⟨0, fun limit _ => iff_of_false ?_ fun ⟨f, h⟩ => hread ⟨limit, f, h⟩⟩
    rintro ⟨f, h⟩
    obtain ⟨g, hg, -⟩ := hout limit f h
    exact hread ⟨limit, some g, hg⟩

/-- An author whose name begins with A or is absent. -/
def namedRecord : Record :=
  [("OR", .list [.record [("name", .record [("startswith", .text "A")])],
    .record [("name", .record [("isNull", .bool true)])]])]

/-- The record is read below the author as it is read on the authors. -/
theorem nested_eq_dotted_author :
    (Sample.reader.catalog.reached? "posts" (Text.split '.' "author") = some "users" ∧
      IsPath "author" ∧ namedRecord ≠ [] ∧
      ∀ entry ∈ namedRecord, isOperatorKey entry.1 = false) ∧
    (∀ limit f, parse ⟨Sample.reader.catalog, limit⟩ "posts"
        (.raw (.record [("author", .record namedRecord)])) = .ok f →
      ∃ g : Filter, parse ⟨Sample.reader.catalog, limit⟩ "users" (.raw (.record namedRecord)) =
        .ok (some g) ∧ f = some (g.under ("author" ++ "."))) ∧
    ∃ enough : Int, ∀ limit ≥ enough,
      ((∃ f, parse ⟨Sample.reader.catalog, limit⟩ "posts"
          (.raw (.record [("author", .record namedRecord)])) = .ok f) ↔
        ∃ f, parse ⟨Sample.reader.catalog, limit⟩ "users" (.raw (.record namedRecord)) =
          .ok f) := by
  have hreach :
      Sample.reader.catalog.reached? "posts" (Text.split '.' "author") = some "users" := by
    decide +kernel
  have hway : IsPath "author" := ⟨by decide, by decide, by decide, by decide⟩
  have hne : namedRecord ≠ [] := List.cons_ne_nil _ _
  have hnames : ∀ entry ∈ namedRecord, isOperatorKey entry.1 = false := by
    intro entry hentry
    obtain rfl := List.mem_singleton.1 hentry
    decide
  exact ⟨⟨hreach, hway, hne, hnames⟩, nested_eq_dotted hreach hway hne hnames⟩

/-- Posts whose relation to the author has the empty name. -/
def nameless : Catalog :=
  ⟨[{ Sample.posts with relations := [{ Sample.author with name := "" }] }, Sample.users]⟩

/-- A relation with the empty name cannot be asked for by itself: a member without a name is refused
under every limit, while the record below it is read on the relation's target. -/
theorem nameless_relation_refused :
    (nameless.reached? "posts" (Text.split '.' "") = some "users" ∧
      "" ≠ "AND" ∧ "" ≠ "OR" ∧ "" ≠ "NOT" ∧ isOperatorKey "name" = false) ∧
    ¬ ∃ enough : Int, ∀ limit ≥ enough,
      ((∃ f, parse ⟨nameless, limit⟩ "posts"
          (.raw (.record [("", .record [("name", .text "Ada")])])) = .ok f) ↔
        ∃ f, parse ⟨nameless, limit⟩ "users"
          (.raw (.record [("name", .text "Ada")])) = .ok f) := by
  refine ⟨⟨by decide +kernel, by decide, by decide, by decide, by decide⟩, ?_⟩
  rintro ⟨enough, h⟩
  -- the limit is high enough, and no relation has to be passed to the name
  have hlimit := h (max enough 0) (Int.le_max_left _ _)
  have hdepth : checkDepth ⟨nameless, max enough 0⟩ "name" 0 = .ok () :=
    checkDepth_eq_ok.2 (Int.le_max_right enough 0)
  have hcheck : checkCondition ⟨nameless, max enough 0⟩ "users"
      ⟨"name", .eq, .text "Ada", none⟩ = .ok () := by
    rw [checkCondition, hdepth]
    rfl
  have hread : ∃ f, parse ⟨nameless, max enough 0⟩ "users"
      (.raw (.record [("name", .text "Ada")])) = .ok f := by
    refine ⟨_, parse_record_eq_ok.2 ⟨[.leaf ⟨"name", .eq, .text "Ada", none⟩],
      readMembers_singleton rfl ?_, rfl⟩⟩
    exact Outcome.bind_eq_ok.2 ⟨(), hcheck, rfl⟩
  obtain ⟨f, hf⟩ := hlimit.2 hread
  cases hf

end FilterReader

end Warden
