import Mathlib.Data.List.Forall2
import Warden.Proofs.Filter.Folding
import Warden.Sql.Select
import Warden.Sql.Write

/-! # The names in a statement

The names that stand in a predicate are names of the collections it was made from. If a property
holds of every name that the collections declare (**`Catalog.Over`**), it holds of every name in the
predicate of a filter (**`Predicate.Over`**, `over_predicate`), and every cast in it is one of those
that are known. -/

namespace Warden

variable {P : String → Prop}

/-! ## Declared names -/

/-- The property holds of the names that a relation declares. -/
structure Relation.Over (P : String → Prop) (r : Relation) : Prop where
  /-- It holds of the name of the relation. -/
  name : P r.name
  /-- It holds of the column with the key of the other row. -/
  foreignKey : ∀ key, r.foreignKey = some key → P key
  /-- It holds of the joining table. -/
  through : ∀ table, r.through = some table → P table
  /-- It holds of the joining table's column for this row. -/
  sourceKey : ∀ key, r.sourceKey = some key → P key
  /-- It holds of the joining table's column for the target row. -/
  targetKey : ∀ key, r.targetKey = some key → P key

/-- The property holds of the names that a collection declares. -/
structure Collection.Over (P : String → Prop) (c : Collection) : Prop where
  /-- It holds of the name of the collection. -/
  name : P c.name
  /-- It holds of the name of the table. -/
  table : P c.table
  /-- It holds of the names of the fields. -/
  fields : ∀ f ∈ c.fields, P f.name
  /-- It holds of the names of the relations and of those in them. -/
  relations : ∀ r ∈ c.relations, r.Over P

/-- The property holds of the two names that no collection declares. -/
structure Reserved (P : String → Prop) : Prop where
  /-- It holds of the key of collections that declare none. -/
  key : P "id"
  /-- It holds of the mark of deleted rows. -/
  mark : P Sql.deletedMark

/-- The property holds of all names that collections declare, and of those that are used whatever
they declare. -/
structure Catalog.Over (P : String → Prop) (k : Catalog) : Prop where
  /-- It holds of the names of each collection. -/
  collections : ∀ c ∈ k.collections, c.Over P
  /-- It holds of the other names. -/
  reserved : Reserved P

namespace Collection.Over

variable {c : Collection} (h : c.Over P)

include h

theorem tableName : P c.tableName := by
  rw [Collection.tableName]
  split
  · exact h.name
  · exact h.table

theorem field {name : String} {f : Field} (hf : c.field? name = some f) : P name := by
  obtain rfl : f.name = name := by simpa using List.find?_some hf
  exact h.fields f (List.mem_of_find?_eq_some hf)

theorem hasField {name : String} (hname : c.hasField name = true) : P name := by
  obtain ⟨f, hf⟩ := Option.isSome_iff_exists.1 hname
  exact h.field hf

theorem relation {name : String} {r : Relation} (hr : c.relation? name = some r) : r.Over P :=
  h.relations r (List.mem_of_find?_eq_some hr)

theorem hasRelation {name : String} (hname : c.hasRelation name = true) : P name := by
  obtain ⟨r, hr⟩ := Option.isSome_iff_exists.1 hname
  obtain rfl : r.name = name := by simpa using List.find?_some hr
  exact (h.relation hr).name

theorem primaryKey (hid : Reserved P) : P c.primaryKey := by
  rw [Collection.primaryKey]
  split
  · next f hf => exact h.fields f (List.mem_of_find?_eq_some hf)
  · exact hid.key

end Collection.Over

namespace Catalog.Over

variable {k : Catalog} (h : k.Over P)

include h

theorem find? {name : String} {c : Collection} (hc : k.find? name = some c) : c.Over P :=
  h.collections c (List.mem_of_find?_eq_some hc)

theorem find {name : String} {c : Collection} (hc : k.find name = .ok c) : c.Over P := by
  rw [Catalog.find] at hc
  split at hc
  · next hfound =>
      cases hc
      exact h.find? hfound
  · cases hc

end Catalog.Over

/-! ## Names in predicates -/

namespace Sql

/-- The property holds of the column, and the cast is known. -/
structure Operand.Over (P : String → Prop) (o : Operand) : Prop where
  /-- It holds of the name of the column. -/
  column : P o.column.name
  /-- There is no cast, or a known one. -/
  cast : ∀ cast, o.cast = some cast → (castFamily? cast).isSome = true

/-- What a test is about. -/
@[simp] def Test.operand : Test → Operand
  | compare o _ _ | isNull o | isNotNull o | anyOf o _ | noneOf o _ | between o _ _
  | notBetween o _ _ | empty _ o | notEmpty _ o | length o _ | jsonContains o _ | anyKey o _
  | allKeys o _ | jsonPath o _ | spatial _ o _ | notSpatial _ o _ | near o _ _ => o
  | search c _ => ⟨c, none⟩

/-- The property holds of the columns on both sides. -/
structure Correlation.Over (P : String → Prop) (c : Correlation) : Prop where
  /-- It holds of the one side. -/
  left : P c.left.name
  /-- It holds of the other side. -/
  right : P c.right.name

/-- The property holds of the names in a join. -/
structure Join.Over (P : String → Prop) (j : Join) : Prop where
  /-- It holds of the table. -/
  table : P j.table
  /-- It holds of the joining table. -/
  junction : ∀ u, j.junction = some u → P u.table ∧ u.on.Over P
  /-- It holds of the keys. -/
  on : j.on.Over P
  /-- It holds of the mark of deleted rows. -/
  mark : P deletedMark

/-- The property holds of the names in a predicate, and every cast in it is known. -/
inductive Predicate.Over (P : String → Prop) : Predicate → Prop where
  /-- There is no name. -/
  | constant (b : Bool) : Over P (.constant b)
  /-- It holds of the operand. -/
  | test (t : Test) (h : t.operand.Over P) : Over P (.test t)
  /-- It holds of the names in each part. -/
  | conj (ps : List Predicate) (h : ∀ p ∈ ps, Over P p) : Over P (.conj ps)
  /-- It holds of the names in each part. -/
  | disj (ps : List Predicate) (h : ∀ p ∈ ps, Over P p) : Over P (.disj ps)
  /-- It holds of the names in what is negated. -/
  | neg (p : Predicate) (h : Over P p) : Over P (.neg p)
  /-- It holds of the names in the join and behind it. -/
  | exist (j : Join) (p : Predicate) (hj : j.Over P) (hp : Over P p) : Over P (.exist j p)

/-- The test for deleted rows names their mark. -/
theorem Test.over_alive (h : P deletedMark) (a : Alias) : (alive a).operand.Over P :=
  ⟨h, fun _ hcast => nomatch hcast⟩

/-! ## Constructions with numbered tables -/

namespace Build

variable {α β : Type} {n m : Alias}

/-- Two constructions after one another give a result iff the first one does and the second one does
from there. -/
theorem bind_eq_ok {x : Build α} {f : α → Build β} {b : β} :
    (x >>= f) n = .ok (b, m) ↔ ∃ a l, x n = .ok (a, l) ∧ f a l = .ok (b, m) := by
  show (x n >>= fun (a, l) => f a l) = _ ↔ _
  rw [Outcome.bind_eq_ok]
  constructor
  · rintro ⟨⟨a, l⟩, hx, hf⟩
    exact ⟨a, l, hx, hf⟩
  · rintro ⟨a, l, hx, hf⟩
    exact ⟨(a, l), hx, hf⟩

@[simp] theorem pure_eq_ok {a b : α} : (pure a : Build α) n = .ok (b, m) ↔ a = b ∧ n = m := by
  show (Except.ok (a, n) : Outcome (α × Alias)) = .ok (b, m) ↔ _
  simp

/-- A construction whose result is changed gives a result iff it does unchanged. -/
theorem map_eq_ok {x : Build α} {f : α → β} {b : β} :
    (f <$> x) n = .ok (b, m) ↔ ∃ a, x n = .ok (a, m) ∧ f a = b := by
  show ((x >>= fun a => pure (f a)) : Build β) n = .ok (b, m) ↔ _
  rw [bind_eq_ok]
  constructor
  · rintro ⟨a, l, hx, hf⟩
    obtain ⟨rfl, rfl⟩ := pure_eq_ok.1 hf
    exact ⟨a, hx, rfl⟩
  · rintro ⟨a, hx, rfl⟩
    exact ⟨a, m, hx, pure_eq_ok.2 ⟨rfl, rfl⟩⟩

/-- A computation that numbers nothing leaves the last number as it is. -/
@[simp] theorem lift_eq_ok {x : Outcome α} {a : α} :
    (liftM x : Build α) n = .ok (a, m) ↔ x = .ok a ∧ n = m := by
  show (x >>= fun a => .ok (a, n)) = .ok (a, m) ↔ _
  cases x <;> simp [bind, Except.bind]

end Build

/-! ## Names in joins -/

variable {k : Catalog} {c : Collection} {n m : Alias}

theorem over_joinKey {r : Relation} {key : Option String} {name : String}
    (hkey : ∀ s, key = some s → P s) (h : joinKey r key = .ok name) : P name := by
  unfold joinKey at h
  split at h
  · split at h
    · cases h
    · cases h
      exact hkey _ rfl
  · cases h

/-- A join has the names of the relation and of the collections at its two ends. -/
theorem over_joinRelation (hk : k.Over P) (hc : c.Over P) {source : Alias} {name : String}
    {j : Join} {target : Collection} (h : joinRelation k c source name n = .ok ((j, target), m)) :
    j.Over P ∧ target.Over P := by
  unfold joinRelation at h
  cases hr : c.relation? name with
  | none =>
      rw [hr] at h
      cases h
  | some r =>
      rw [hr] at h
      have hrelation := hc.relation hr
      obtain ⟨target', _, htarget, h⟩ := Build.bind_eq_ok.1 h
      have hover := hk.find (Build.lift_eq_ok.1 htarget).1
      have hsource : P c.primaryKey := hc.primaryKey hk.reserved
      have hkey : P target'.primaryKey := hover.primaryKey hk.reserved
      obtain ⟨a, _, -, h⟩ := Build.bind_eq_ok.1 h
      cases htype : r.type with
      | manyToMany =>
          simp only [htype, Build.bind_eq_ok, Build.lift_eq_ok, Build.pure_eq_ok,
            Prod.mk.injEq] at h
          obtain ⟨b, _, -, table, _, ⟨htable, -⟩, targetKey, _, ⟨htarget, -⟩, sourceKey, _,
            ⟨hsourceKey, -⟩, _, _, ⟨rfl, -⟩, ⟨rfl, rfl⟩, -⟩ := h
          refine ⟨⟨hover.tableName, ?_, ⟨?_, hsource⟩, hk.reserved.mark⟩, hover⟩
          · rintro _ ⟨⟩
            exact ⟨over_joinKey hrelation.through htable, hkey,
              over_joinKey hrelation.targetKey htarget⟩
          · exact over_joinKey hrelation.sourceKey hsourceKey
      | oneToMany =>
          simp only [htype, Build.bind_eq_ok, Build.lift_eq_ok, Build.pure_eq_ok,
            Prod.mk.injEq] at h
          obtain ⟨key, _, ⟨hforeign, -⟩, _, _, ⟨rfl, -⟩, ⟨rfl, rfl⟩, -⟩ := h
          have hcolumn := over_joinKey hrelation.foreignKey hforeign
          refine ⟨⟨hover.tableName, ?_, ⟨hcolumn, hsource⟩, hk.reserved.mark⟩, hover⟩
          exact fun _ hu => nomatch hu
      | manyToOne | oneToOne =>
          simp only [htype, Build.bind_eq_ok, Build.lift_eq_ok, Build.pure_eq_ok,
            Prod.mk.injEq] at h
          obtain ⟨key, _, ⟨hforeign, -⟩, _, _, ⟨rfl, -⟩, ⟨rfl, rfl⟩, -⟩ := h
          have hcolumn := over_joinKey hrelation.foreignKey hforeign
          refine ⟨⟨hover.tableName, ?_, ⟨hkey, hcolumn⟩, hk.reserved.mark⟩, hover⟩
          exact fun _ hu => nomatch hu

/-! ## Names in predicates of filters -/

variable {p : Predicate}

/-- The predicate of an operator is a constant or a test of its operand. -/
theorem exists_test_of_operatorPredicate {op : Operator} {o : Operand} {family : TypeFamily}
    {v : Value} (h : operatorPredicate op o family v = .ok p) :
    (∃ b, p = .constant b) ∨ ∃ t : Test, p = .test t ∧ t.operand = o := by
  have hpure {t : Test} (ht : t.operand = o) (h : (.ok (.test t) : Outcome Predicate) = .ok p) :
      ∃ t : Test, p = .test t ∧ t.operand = o := ⟨t, (Except.ok.inj h).symm, ht⟩
  have hbind {α : Type} {x : Outcome α} {f : α → Test} (hf : ∀ a, (f a).operand = o)
      (h : (x >>= fun a => pure (Predicate.test (f a))) = .ok p) :
      ∃ t : Test, p = .test t ∧ t.operand = o := by
    obtain ⟨a, -, h⟩ := Outcome.bind_eq_ok.1 h
    exact hpure (hf a) h
  cases op with
  | isIn | notIn =>
      simp only [operatorPredicate] at h
      split at h
      · exact .inr (hbind (fun _ => rfl) h)
      · exact .inl ⟨_, (Except.ok.inj h).symm⟩
  | isNull | empty | arrayEmpty =>
      refine .inr (hpure ?_ h)
      split <;> rfl
  | dwithin =>
      obtain ⟨_, -, h⟩ := Outcome.bind_eq_ok.1 h
      obtain ⟨geometry, -, h⟩ := Outcome.bind_eq_ok.1 h
      exact .inr (hbind (fun _ => rfl) h)
  | contains | icontains | ncontains | startsWith | endsWith | nstartsWith | nendsWith | between
  | nbetween | jsonHasAnyKeys | jsonHasAllKeys | within | containsGeo | intersects | overlaps
  | nIntersects => exact .inr (hbind (fun _ => rfl) h)
  | _ => exact .inr (hpure rfl h)

theorem over_operatorPredicate {op : Operator} {o : Operand} {family : TypeFamily} {v : Value}
    (ho : o.Over P) (h : operatorPredicate op o family v = .ok p) : p.Over P := by
  obtain ⟨b, rfl⟩ | ⟨t, rfl, rfl⟩ := exists_test_of_operatorPredicate h
  · exact .constant b
  · exact .test t ho

/-- The predicate of a condition on a field is that of its operator on the column of the field, with
a known cast if there is one. -/
theorem exists_operand_of_fieldPredicate {row : Alias} {name : String} {condition : Condition}
    (h : fieldPredicate c row name condition = .ok p) :
    ∃ cast family, c.hasField name = true ∧
      (∀ type, cast = some type → (castFamily? type).isSome = true) ∧
      operatorPredicate condition.operator ⟨⟨row, name⟩, cast⟩ family condition.value = .ok p := by
  unfold fieldPredicate at h
  split at h
  · cases h
  · next field hf =>
      have hfield : c.hasField name = true := Option.isSome_of_eq_some hf
      split at h
      · exact ⟨none, _, hfield, by simp, h⟩
      · split at h
        · exact ⟨none, _, hfield, by simp, h⟩
        · split at h
          · cases h
          · next family hfamily =>
              refine ⟨some _, family, hfield, ?_, h⟩
              rintro _ ⟨⟩
              exact Option.isSome_of_eq_some hfamily

theorem over_fieldPredicate (hc : c.Over P) {row : Alias} {name : String} {condition : Condition}
    (h : fieldPredicate c row name condition = .ok p) : p.Over P := by
  obtain ⟨cast, family, hfield, hcast, h⟩ := exists_operand_of_fieldPredicate h
  exact over_operatorPredicate ⟨hc.hasField hfield, hcast⟩ h

theorem over_pathPredicate (hk : k.Over P) {condition : Condition} {path : List String}
    {row : Alias} (hc : c.Over P) (h : pathPredicate k condition path c row n = .ok (p, m)) :
    p.Over P := by
  induction path, c, row using pathPredicate.induct generalizing n m p with
  | case1 c row => cases h
  | case2 name c row =>
      rw [pathPredicate, Build.lift_eq_ok] at h
      exact over_fieldPredicate hc h.1
  | case3 relation rest c row hrest ih =>
      rw [pathPredicate] at h
      obtain ⟨⟨j, target⟩, _, hjoin, h⟩ := Build.bind_eq_ok.1 h
      obtain ⟨q, _, hq, h⟩ := Build.bind_eq_ok.1 h
      obtain ⟨rfl, -⟩ := Build.pure_eq_ok.1 h
      obtain ⟨hj, htarget⟩ := over_joinRelation hk hc hjoin
      exact .exist j q hj (ih j target htarget hq)
      exact hrest

/-- What each filter's predicate has to do with the filter, all of them have to do with theirs. -/
theorem forall₂_predicates {motive : Predicate → Filter → Prop} {row : Alias} {fs : List Filter}
    {ps : List Predicate}
    (hf : ∀ f ∈ fs, ∀ {n m : Alias} {p : Predicate}, f.predicate k c row n = .ok (p, m) →
      motive p f) (h : Filter.predicates k c row fs n = .ok (ps, m)) :
    List.Forall₂ motive ps fs := by
  induction fs generalizing n m ps with
  | nil =>
      obtain ⟨rfl, -⟩ := Build.pure_eq_ok.1 h
      exact .nil
  | cons f fs ih =>
      obtain ⟨hfirst, hrest⟩ := List.forall_mem_cons.1 hf
      obtain ⟨p, _, hp, h⟩ := Build.bind_eq_ok.1 h
      obtain ⟨qs, _, hqs, h⟩ := Build.bind_eq_ok.1 h
      obtain ⟨rfl, -⟩ := Build.pure_eq_ok.1 h
      exact .cons (hfirst hp) (ih hrest hqs)

/-- What every predicate of one of the filters has, all of them have. -/
theorem forall_mem_predicates {motive : Predicate → Prop} {row : Alias} {fs : List Filter}
    {ps : List Predicate}
    (hf : ∀ f ∈ fs, ∀ {n m : Alias} {p : Predicate}, f.predicate k c row n = .ok (p, m) → motive p)
    (h : Filter.predicates k c row fs n = .ok (ps, m)) : ∀ p ∈ ps, motive p := by
  have hall : List.Forall₂ (fun p _ => motive p ∧ True) ps fs :=
    forall₂_predicates (fun f hmem _ _ _ hp => ⟨hf f hmem hp, trivial⟩) h
  exact ((List.forall₂_and_left _ _).1 hall).1

/-- **The names in the predicate of a filter** are declared ones. -/
theorem over_predicate (hk : k.Over P) (hc : c.Over P) {row : Alias} {f : Filter}
    (h : f.predicate k c row n = .ok (p, m)) : p.Over P := by
  induction f generalizing n m p with
  | leaf condition => exact over_pathPredicate hk hc h
  | conj fs ih =>
      obtain ⟨ps, _, hps, h⟩ := Build.bind_eq_ok.1 h
      obtain ⟨rfl, -⟩ := Build.pure_eq_ok.1 h
      exact .conj ps (forall_mem_predicates ih hps)
  | disj fs ih =>
      obtain ⟨ps, _, hps, h⟩ := Build.bind_eq_ok.1 h
      obtain ⟨rfl, -⟩ := Build.pure_eq_ok.1 h
      exact .disj ps (forall_mem_predicates ih hps)
  | neg f ih =>
      obtain ⟨q, _, hq, h⟩ := Build.bind_eq_ok.1 h
      obtain ⟨rfl, -⟩ := Build.pure_eq_ok.1 h
      exact .neg q (ih hq)
  | all | none =>
      obtain ⟨rfl, -⟩ := Build.pure_eq_ok.1 h
      exact .constant _

/-- The names in the predicates of conditions on related rows are declared ones. -/
theorem over_relationPredicates (hk : k.Over P) (hc : c.Over P) {fs : Named Filter}
    {ps : List Predicate} (h : relationPredicates k c fs n = .ok (ps, m)) :
    ∀ p ∈ ps, p.Over P := by
  induction fs generalizing n m ps with
  | nil =>
      obtain ⟨rfl, -⟩ := Build.pure_eq_ok.1 h
      exact fun p hp => nomatch hp
  | cons entry fs ih =>
      obtain ⟨name, f⟩ := entry
      rw [relationPredicates] at h
      split at h
      · exact ih h
      · obtain ⟨⟨j, target⟩, _, hjoin, h⟩ := Build.bind_eq_ok.1 h
        obtain ⟨q, _, hq, h⟩ := Build.bind_eq_ok.1 h
        obtain ⟨qs, _, hqs, h⟩ := Build.bind_eq_ok.1 h
        obtain ⟨rfl, -⟩ := Build.pure_eq_ok.1 h
        obtain ⟨hj, htarget⟩ := over_joinRelation hk hc hjoin
        exact List.forall_mem_cons.2 ⟨.exist j q hj (over_predicate hk htarget hq), ih hqs⟩

/-! ## Names in statements that write -/

/-- What must hold of rows that are written, part by part. -/
theorem exists_of_rowConditions {f : Filter} {relConditions : Named Filter} {ps : List Predicate}
    (h : rowConditions k c f relConditions = .ok ps) :
    ∃ own l related m, f.predicate k c baseAlias baseAlias = .ok (own, l) ∧
      relationPredicates k c relConditions l = .ok (related, m) ∧
      ps = own :: related ++ if c.paranoid then [.test (.alive baseAlias)] else [] := by
  obtain ⟨⟨conditions, m⟩, hconditions, h⟩ := Outcome.bind_eq_ok.1 h
  obtain ⟨own, l, hown, hconditions⟩ := Build.bind_eq_ok.1 hconditions
  obtain ⟨related, _, hrelated, hconditions⟩ := Build.bind_eq_ok.1 hconditions
  obtain ⟨rfl, rfl⟩ := Build.pure_eq_ok.1 hconditions
  exact ⟨own, l, related, _, hown, hrelated, (Outcome.pure_eq_ok.1 h).symm⟩

theorem over_alive (hk : k.Over P) {q : Predicate}
    (hq : q ∈ if c.paranoid then [Predicate.test (.alive baseAlias)] else []) : q.Over P := by
  split at hq
  · rw [List.mem_singleton.1 hq]
    exact .test _ (Test.over_alive hk.reserved.mark _)
  · cases hq

theorem over_rowConditions (hk : k.Over P) (hc : c.Over P) {f : Filter}
    {relConditions : Named Filter} {ps : List Predicate}
    (h : rowConditions k c f relConditions = .ok ps) : ∀ p ∈ ps, p.Over P := by
  obtain ⟨own, l, related, m, hown, hrelated, rfl⟩ := exists_of_rowConditions h
  intro q hq
  rcases List.mem_append.1 hq with hq | hq
  · rcases List.mem_cons.1 hq with rfl | hq
    · exact over_predicate hk hc hown
    · exact over_relationPredicates hk hc hrelated q hq
  · exact over_alive hk hq

/-- The property holds of the names in a statement that writes. -/
inductive Change.Over (P : String → Prop) : Change → Prop where
  /-- It holds of the table, the columns and the key. -/
  | insert {table : String} {values : List (String × Written)} {key : String} (htable : P table)
      (hvalues : ∀ entry ∈ values, P entry.1) (hkey : P key) : Over P (.insert table values key)
  /-- It holds of the table, the columns, the conditions and the key. -/
  | update {table : String} {values : List (String × Written)} {conditions : List Predicate}
      {key : String} (htable : P table) (hvalues : ∀ entry ∈ values, P entry.1)
      (hconditions : ∀ p ∈ conditions, p.Over P) (hkey : P key) :
      Over P (.update table values conditions key)
  /-- It holds of the table, the mark, the conditions and the key. -/
  | mark {table : String} {conditions : List Predicate} {key : String} (htable : P table)
      (hmark : P deletedMark) (hconditions : ∀ p ∈ conditions, p.Over P) (hkey : P key) :
      Over P (.mark table conditions key)
  /-- It holds of the table, the conditions and the key. -/
  | delete {table : String} {conditions : List Predicate} {key : String} (htable : P table)
      (hconditions : ∀ p ∈ conditions, p.Over P) (hkey : P key) :
      Over P (.delete table conditions key)
  /-- It holds of the table and its columns. -/
  | link {table sourceColumn targetColumn : String} (source : Value) (targets : List Value)
      (htable : P table) (hsource : P sourceColumn) (htarget : P targetColumn) :
      Over P (.link table sourceColumn targetColumn source targets)

/-- Values are written in order, each to the column of its name. -/
theorem names_writtenAll {values : Record} {ws : List (String × Written)}
    (h : writtenAll c values = .ok ws) : ws.map Prod.fst = Named.names values := by
  induction values generalizing ws with
  | nil =>
      cases h
      rfl
  | cons entry values ih =>
      obtain ⟨w, -, h⟩ := Outcome.bind_eq_ok.1 h
      obtain ⟨rest, hrest, h⟩ := Outcome.bind_eq_ok.1 h
      obtain rfl := Outcome.pure_eq_ok.1 h
      rw [List.map_cons, ih hrest]
      rfl

theorem over_writtenAll {values : Record} {ws : List (String × Written)}
    (h : writtenAll c values = .ok ws) (hvalues : ∀ name ∈ Named.names values, P name) :
    ∀ entry ∈ ws, P entry.1 := by
  rw [← names_writtenAll h] at hvalues
  exact fun entry hentry => hvalues _ (List.mem_map_of_mem hentry)

variable {collection : String} {values : Record} {f : Filter} {relConditions : Named Filter}
  {s : Change}

theorem over_insertRow (hk : k.Over P) (hvalues : ∀ name ∈ Named.names values, P name)
    (h : insertRow k collection values = .ok s) : s.Over P := by
  obtain ⟨c, hc, h⟩ := Outcome.bind_eq_ok.1 h
  obtain ⟨ws, hws, h⟩ := Outcome.bind_eq_ok.1 h
  obtain rfl := Outcome.pure_eq_ok.1 h
  have hover := hk.find hc
  exact .insert hover.tableName (over_writtenAll hws hvalues) (hover.primaryKey hk.reserved)

theorem over_updateRows (hk : k.Over P) (hvalues : ∀ name ∈ Named.names values, P name)
    (h : updateRows k collection f values relConditions = .ok s) : s.Over P := by
  obtain ⟨c, hc, h⟩ := Outcome.bind_eq_ok.1 h
  obtain ⟨ws, hws, h⟩ := Outcome.bind_eq_ok.1 h
  obtain ⟨conditions, hconditions, h⟩ := Outcome.bind_eq_ok.1 h
  obtain rfl := Outcome.pure_eq_ok.1 h
  have hover := hk.find hc
  exact .update hover.tableName (over_writtenAll hws hvalues)
    (over_rowConditions hk hover hconditions) (hover.primaryKey hk.reserved)

theorem over_deleteRows (hk : k.Over P) (h : deleteRows k collection f relConditions = .ok s) :
    s.Over P := by
  obtain ⟨c, hc, h⟩ := Outcome.bind_eq_ok.1 h
  obtain ⟨conditions, hconditions, h⟩ := Outcome.bind_eq_ok.1 h
  have hover := hk.find hc
  have hall := over_rowConditions hk hover hconditions
  have hkey := hover.primaryKey hk.reserved
  split at h
  · obtain rfl := Outcome.pure_eq_ok.1 h
    exact .mark hover.tableName hk.reserved.mark hall hkey
  · obtain rfl := Outcome.pure_eq_ok.1 h
    exact .delete hover.tableName hall hkey

theorem over_linkRows {r : Relation} (hr : r.Over P) {source : Value} {targets : List Value}
    (h : linkRows r source targets = .ok s) : s.Over P := by
  obtain ⟨sourceColumn, hsource, h⟩ := Outcome.bind_eq_ok.1 h
  obtain ⟨targetColumn, htarget, h⟩ := Outcome.bind_eq_ok.1 h
  obtain ⟨table, htable, h⟩ := Outcome.bind_eq_ok.1 h
  obtain rfl := Outcome.pure_eq_ok.1 h
  exact .link source targets (over_joinKey hr.through htable) (over_joinKey hr.sourceKey hsource)
    (over_joinKey hr.targetKey htarget)

end Sql

end Warden
