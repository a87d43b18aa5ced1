import Warden.Proofs.Sql.Fragment
import Warden.Proofs.Sql.Names

/-! # Conditions under other table numbers

The tables of a statement are numbered in the order in which they are needed, so conditions that are
built later have other numbers. Nothing else about them is different: built after `d` more tables,
they are the same conditions with every number but that of the base table greater by `d`
(**`follows_predicate`**, **`follows_relationPredicates`**).

* **`Predicate.renamed`** puts other numbers into a condition. Numbers are all that it changes, so
  the values in the text stay the same and in the same order (`parameters_renamed`).
* **`Build.Follows`** compares two constructions, of which the second one starts with a greater
  number, with one rule for each way of putting constructions together. -/

namespace Warden.Sql

variable {ρ : Alias → Alias}

/-! ## Conditions with other numbers -/

/-- The column with another table number. -/
def Column.renamed (ρ : Alias → Alias) (c : Column) : Column :=
  { c with tableAlias := ρ c.tableAlias }

/-- The operand with another table number. -/
def Operand.renamed (ρ : Alias → Alias) (o : Operand) : Operand :=
  { o with column := o.column.renamed ρ }

/-- The test with another table number. -/
def Test.renamed (ρ : Alias → Alias) : Test → Test
  | compare o c v => compare (o.renamed ρ) c v
  | isNull o => isNull (o.renamed ρ)
  | isNotNull o => isNotNull (o.renamed ρ)
  | anyOf o vs => anyOf (o.renamed ρ) vs
  | noneOf o vs => noneOf (o.renamed ρ) vs
  | between o low high => between (o.renamed ρ) low high
  | notBetween o low high => notBetween (o.renamed ρ) low high
  | empty kind o => empty kind (o.renamed ρ)
  | notEmpty kind o => notEmpty kind (o.renamed ρ)
  | length o v => length (o.renamed ρ) v
  | jsonContains o v => jsonContains (o.renamed ρ) v
  | anyKey o keys => anyKey (o.renamed ρ) keys
  | allKeys o keys => allKeys (o.renamed ρ) keys
  | jsonPath o path => jsonPath (o.renamed ρ) path
  | spatial s o geometry => spatial s (o.renamed ρ) geometry
  | notSpatial s o geometry => notSpatial s (o.renamed ρ) geometry
  | near o geometry distance => near (o.renamed ρ) geometry distance
  | search c pattern => search (c.renamed ρ) pattern

/-- The correlation with other table numbers. -/
def Correlation.renamed (ρ : Alias → Alias) (c : Correlation) : Correlation :=
  ⟨c.left.renamed ρ, c.right.renamed ρ⟩

/-- The joining table with another number. -/
def Junction.renamed (ρ : Alias → Alias) (u : Junction) : Junction :=
  { u with tableAlias := ρ u.tableAlias, on := u.on.renamed ρ }

/-- The join with other table numbers. -/
def Join.renamed (ρ : Alias → Alias) (j : Join) : Join :=
  { j with
    tableAlias := ρ j.tableAlias
    junction := j.junction.map (Junction.renamed ρ)
    on := j.on.renamed ρ }

namespace Predicate

mutual

/-- The condition with other table numbers. -/
def renamed (ρ : Alias → Alias) : Predicate → Predicate
  | constant b => constant b
  | test t => test (t.renamed ρ)
  | conj ps => conj (renamedAll ρ ps)
  | disj ps => disj (renamedAll ρ ps)
  | neg p => neg (renamed ρ p)
  | exist j p => exist (j.renamed ρ) (renamed ρ p)

/-- The conditions with other table numbers. -/
def renamedAll (ρ : Alias → Alias) : List Predicate → List Predicate
  | [] => []
  | p :: ps => renamed ρ p :: renamedAll ρ ps

end

theorem renamedAll_eq_map (ps : List Predicate) : renamedAll ρ ps = ps.map (renamed ρ) := by
  induction ps with
  | nil => rfl
  | cons p ps ih => rw [renamedAll, ih, List.map_cons]

end Predicate

/-! ## Values -/

/-- The values of a test do not depend on its table. -/
theorem Test.parameters_renamed (t : Test) :
    (t.renamed ρ).write.parameters = t.write.parameters := by
  cases t <;> simp [renamed, write, spatialSql, geometrySql]

/-- What a join demands has no values. -/
theorem Join.parameters_onFragments (j : Join) :
    j.onFragments.flatMap Fragment.parameters = [] := by
  rw [onFragments, List.flatMap_cons]
  split <;> simp [Test.alive, Test.write]

namespace Predicate

mutual

/-- The values of a condition do not depend on the numbers of tables. -/
theorem parameters_renamed (p : Predicate) :
    (p.renamed ρ).write.parameters = p.write.parameters := by
  match p with
  | constant b => rfl
  | test t => exact t.parameters_renamed
  | conj ps | disj ps =>
      simp [renamed, write, Fragment.parenthesized, Fragment.parameters_joined,
        flatMap_parameters_renamed ps]
  | neg p => simp [renamed, write, Fragment.parenthesized, parameters_renamed p]
  | exist j p =>
      simp [renamed, write, writeBehind, Fragment.parameters_joined, Join.parameters_onFragments,
        parameters_renamed p]

/-- The values of conditions do not depend on the numbers of tables. -/
theorem flatMap_parameters_renamed (ps : List Predicate) :
    (writeAll (renamedAll ρ ps)).flatMap Fragment.parameters =
      (writeAll ps).flatMap Fragment.parameters := by
  match ps with
  | [] => rfl
  | p :: ps =>
      simp only [renamedAll, writeAll, List.flatMap_cons, parameters_renamed p,
        flatMap_parameters_renamed ps]

end

theorem parameters_writeConditions_renamed (ps : List Predicate) :
    (writeConditions (ps.map (renamed ρ))).parameters = (writeConditions ps).parameters := by
  rw [← renamedAll_eq_map, writeConditions, writeConditions, Fragment.parameters_joined,
    Fragment.parameters_joined, flatMap_parameters_renamed]

end Predicate

/-! ## Constructions that start later -/

/-- The number of a table when `d` more tables were numbered before it; the base table keeps its
own. -/
def later (d : Nat) (a : Alias) : Alias :=
  if a = baseAlias then baseAlias else a + d

theorem later_baseAlias (d : Nat) : later d baseAlias = baseAlias :=
  if_pos rfl

theorem later_succ (d : Nat) (a : Alias) : later d (a + 1) = a + d + 1 :=
  (if_neg (Nat.succ_ne_zero a)).trans (Nat.add_right_comm a 1 d)

theorem later_injective (d : Nat) : Function.Injective (later d) := by
  intro a b h
  cases a with
  | zero =>
      cases b with
      | zero => rfl
      | succ b => exact absurd ((later_succ d b).symm.trans h.symm) (Nat.succ_ne_zero _)
  | succ a =>
      cases b with
      | zero => exact absurd ((later_succ d a).symm.trans h) (Nat.succ_ne_zero _)
      | succ b =>
          rw [later_succ, later_succ] at h
          exact congrArg Nat.succ (Nat.add_right_cancel (Nat.succ.inj h))

namespace Build

variable {α β γ δ : Type} {d : Nat} {f : α → β} {g : γ → δ}

/-- Where the first construction starts with a number, the second one starts with a number greater
by `d`; it gives what corresponds to the result of the first one, and adds as many tables. -/
def Follows (d : Nat) (f : α → β) (x : Build α) (y : Build β) : Prop :=
  ∀ n, y (n + d) = (x n).map fun built => (f built.1, built.2 + d)

theorem follows_pure (a : α) : Follows d f (pure a) (pure (f a)) :=
  fun _ => rfl

/-- A computation that numbers nothing starts nowhere. -/
theorem follows_lift {x : Outcome α} {y : Outcome β} (h : y = x.map f) :
    Follows d f (liftM x) (liftM y) := by
  intro n
  subst h
  cases x <;> rfl

/-- A computation that does not see any number is the same everywhere. -/
theorem follows_const (x : Outcome α) : Follows d id (liftM x) (liftM x) :=
  follows_lift (by cases x <;> rfl)

theorem follows_freshAlias : Follows d (later d) freshAlias freshAlias := by
  intro n
  show (Except.ok (n + d + 1, n + d + 1) : Outcome (Alias × Alias)) =
    .ok (later d (n + 1), n + 1 + d)
  rw [later_succ, Nat.add_right_comm]

theorem Follows.bind {x : Build α} {y : Build β} {x' : α → Build γ} {y' : β → Build δ}
    (h : Follows d f x y) (h' : ∀ a, Follows d g (x' a) (y' (f a))) :
    Follows d g (x >>= x') (y >>= y') := by
  intro n
  show (y (n + d) >>= fun built => y' built.1 built.2) =
    (x n >>= fun built => x' built.1 built.2).map _
  rw [h n]
  cases x n with
  | error e => rfl
  | ok built => exact h' built.1 built.2

end Build

open Build

/-! ## Joins and conditions that are built later -/

variable {k : Catalog} {c : Collection} {d : Nat}

/-- The join is renamed, and leads to the same collection. -/
theorem follows_joinRelation (source : Alias) (name : String) :
    Follows d (Prod.map (Join.renamed (later d)) id) (joinRelation k c source name)
      (joinRelation k c (later d source) name) := by
  unfold joinRelation
  cases hr : c.relation? name with
  | none => exact follows_lift rfl
  | some r =>
      refine (follows_const _).bind fun target => follows_freshAlias.bind fun a => ?_
      -- whatever the keys, the last step is the same
      have hlast (junction : Option Junction) (on : Correlation) :
          Follows d (Prod.map (Join.renamed (later d)) id)
            (pure (Join.mk target.tableName a junction on target.paranoid, target))
            (pure (Join.mk target.tableName (later d a) (junction.map (Junction.renamed (later d)))
              (on.renamed (later d)) target.paranoid, target)) :=
        follows_pure (Join.mk target.tableName a junction on target.paranoid, target)
      cases r.type with
      | manyToMany =>
          refine follows_freshAlias.bind fun b => (follows_const _).bind fun table => ?_
          refine (follows_const _).bind fun targetKey => (follows_const _).bind fun sourceKey => ?_
          exact hlast (some ⟨table, b, ⟨⟨a, target.primaryKey⟩, ⟨b, targetKey⟩⟩⟩)
            ⟨⟨b, sourceKey⟩, ⟨source, c.primaryKey⟩⟩
      | oneToMany =>
          exact (follows_const _).bind fun key =>
            hlast none ⟨⟨a, key⟩, ⟨source, c.primaryKey⟩⟩
      | manyToOne | oneToOne =>
          exact (follows_const _).bind fun key =>
            hlast none ⟨⟨a, target.primaryKey⟩, ⟨source, key⟩⟩

/-- The predicate of an operator on a renamed operand. -/
theorem operatorPredicate_renamed (op : Operator) (o : Operand) (family : TypeFamily) (v : Value) :
    operatorPredicate op (o.renamed ρ) family v =
      (operatorPredicate op o family v).map (Predicate.renamed ρ) := by
  have hbind {α : Type} {x : Outcome α} {f g : α → Test} (h : ∀ a, g a = (f a).renamed ρ) :
      (x >>= fun a => pure (Predicate.test (g a))) =
        (x >>= fun a => pure (Predicate.test (f a))).map (Predicate.renamed ρ) :=
    Outcome.bind_eq_map_bind fun a => by rw [h a]; rfl
  cases op with
  | isIn | notIn =>
      simp only [operatorPredicate]
      split
      · exact hbind fun _ => rfl
      · rfl
  | isNull | empty | arrayEmpty =>
      simp only [operatorPredicate]
      split <;> rfl
  | dwithin =>
      refine Outcome.bind_eq_map_bind fun _ => Outcome.bind_eq_map_bind fun _ => ?_
      exact hbind fun _ => rfl
  | contains | icontains | ncontains | startsWith | endsWith | nstartsWith | nendsWith | between
  | nbetween | jsonHasAnyKeys | jsonHasAllKeys | within | containsGeo | intersects | overlaps
  | nIntersects => exact hbind fun _ => rfl
  | _ => rfl

theorem fieldPredicate_renamed (row : Alias) (name : String) (condition : Condition) :
    fieldPredicate c (ρ row) name condition =
      (fieldPredicate c row name condition).map (Predicate.renamed ρ) := by
  unfold fieldPredicate
  cases c.field? name with
  | none => rfl
  | some field =>
      have hop (cast : Option String) (family : TypeFamily) :=
        operatorPredicate_renamed (ρ := ρ) condition.operator ⟨⟨row, name⟩, cast⟩ family
          condition.value
      simp only
      split
      · exact hop _ _
      · split
        · exact hop _ _
        · split
          · rfl
          · exact hop _ _

theorem follows_pathPredicate (condition : Condition) (path : List String) (row : Alias) :
    Follows d (Predicate.renamed (later d)) (pathPredicate k condition path c row)
      (pathPredicate k condition path c (later d row)) := by
  induction path, c, row using pathPredicate.induct with
  | case1 c row => exact follows_lift rfl
  | case2 name c row => exact follows_lift (fieldPredicate_renamed row name condition)
  | case3 relation rest c row hrest ih =>
      rw [pathPredicate, pathPredicate]
      · refine (follows_joinRelation row relation).bind fun built => ?_
        exact (ih built.1 built.2).bind fun p => follows_pure (Predicate.exist built.1 p)
      all_goals exact hrest

/-- The predicates of filters are renamed if that of each of them is. -/
theorem follows_predicates {row : Alias} {fs : List Filter}
    (hf : ∀ f ∈ fs, Follows d (Predicate.renamed (later d)) (f.predicate k c row)
      (f.predicate k c (later d row))) :
    Follows d (List.map (Predicate.renamed (later d))) (Filter.predicates k c row fs)
      (Filter.predicates k c (later d row) fs) := by
  induction fs with
  | nil => exact follows_pure []
  | cons f fs ih =>
      obtain ⟨hfirst, hrest⟩ := List.forall_mem_cons.1 hf
      exact hfirst.bind fun p => (ih hrest).bind fun ps => follows_pure (p :: ps)

/-- **The predicate of a filter** is renamed where it is built later. -/
theorem follows_predicate (row : Alias) (f : Filter) :
    Follows d (Predicate.renamed (later d)) (f.predicate k c row)
      (f.predicate k c (later d row)) := by
  have hparts {fs : List Filter} {group : List Predicate → Predicate}
      (hgroup : ∀ ps, (group ps).renamed (later d) = group (ps.map (Predicate.renamed (later d))))
      (ih : ∀ f ∈ fs, Follows d (Predicate.renamed (later d)) (f.predicate k c row)
        (f.predicate k c (later d row))) :
      Follows d (Predicate.renamed (later d))
        (Filter.predicates k c row fs >>= fun ps => pure (group ps))
        (Filter.predicates k c (later d row) fs >>= fun ps => pure (group ps)) :=
    (follows_predicates ih).bind fun ps => hgroup ps ▸ follows_pure (group ps)
  induction f with
  | leaf condition => exact follows_pathPredicate condition _ row
  | conj fs ih =>
      refine hparts (fun ps => ?_) ih
      rw [Predicate.renamed, Predicate.renamedAll_eq_map]
  | disj fs ih =>
      refine hparts (fun ps => ?_) ih
      rw [Predicate.renamed, Predicate.renamedAll_eq_map]
  | neg f ih => exact ih.bind fun p => follows_pure (Predicate.neg p)
  | all => exact follows_pure (Predicate.constant true)
  | none => exact follows_pure (Predicate.constant false)

/-- **The predicates of conditions on related rows** are renamed where they are built later. -/
theorem follows_relationPredicates (fs : Named Filter) :
    Follows d (List.map (Predicate.renamed (later d))) (relationPredicates k c fs)
      (relationPredicates k c fs) := by
  induction fs with
  | nil => exact follows_pure []
  | cons entry fs ih =>
      obtain ⟨name, f⟩ := entry
      rw [relationPredicates]
      split
      · exact ih
      · refine (follows_joinRelation baseAlias name).bind fun built => ?_
        refine (follows_predicate built.1.tableAlias f).bind fun p => ?_
        exact ih.bind fun ps => follows_pure (Predicate.exist built.1 p :: ps)

end Warden.Sql
