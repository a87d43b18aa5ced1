import Warden.Filter.Check

/-! # Filters

A **`Filter`** is a tree of conditions under conjunction, disjunction and negation, with two
constants. The folding constructors **`conjoin`**, **`disjoin`** and **`negate`** build trees
without constants below a connective, without a connective directly under itself and without one
that has a single child.
-/

namespace Warden

/-- A leaf: a field compared with a value, after an optional cast. -/
structure Condition where
  /-- The path of the field; the names of relations on the way stand before it, with dots. -/
  field : String
  /-- The comparison. -/
  operator : Operator
  /-- What the field is compared with. -/
  value : Value
  /-- The type the field is cast to first. -/
  cast : Option String

/-- A tree of conditions. -/
inductive Filter where
  /-- One condition. -/
  | leaf (condition : Condition)
  /-- All children must hold. -/
  | conj (children : List Filter)
  /-- At least one child must hold. -/
  | disj (children : List Filter)
  /-- The child must not hold. -/
  | neg (child : Filter)
  /-- Every row matches. -/
  | all
  /-- No row matches. -/
  | none

namespace Filter

/-! ## Folding constructors -/

/-- The conjuncts of a filter. -/
def conjuncts : Filter → List Filter
  | .all => []
  | .conj children => children
  | f => [f]

/-- The disjuncts of a filter. -/
def disjuncts : Filter → List Filter
  | .none => []
  | .disj children => children
  | f => [f]

/-- The filter matches no row by its form. -/
def isNone : Filter → Bool
  | .none => true
  | _ => false

/-- The filter matches every row by its form. -/
def isAll : Filter → Bool
  | .all => true
  | _ => false

/-- A conjunction of children that are folded already. -/
def ofConjuncts : List Filter → Filter
  | [] => .all
  | [f] => f
  | fs => .conj fs

/-- A disjunction of children that are folded already. -/
def ofDisjuncts : List Filter → Filter
  | [] => .none
  | [f] => f
  | fs => .disj fs

/-- All of the filters. -/
def conjoin (fs : List Filter) : Filter :=
  if fs.any isNone then .none else ofConjuncts (fs.flatMap conjuncts)

/-- At least one of the filters. -/
def disjoin (fs : List Filter) : Filter :=
  if fs.any isAll then .all else ofDisjuncts (fs.flatMap disjuncts)

/-- Not the filter. -/
def negate : Filter → Filter
  | .all => .none
  | .none => .all
  | .neg f => f
  | f => .neg f

/-! ## Conditions of a filter -/

mutual

/-- The conditions of a filter, from left to right. -/
def conditions : Filter → List Condition
  | .leaf c => [c]
  | .conj fs | .disj fs => conditionsOf fs
  | .neg f => conditions f
  | .all | .none => []

/-- The conditions of several filters, from left to right. -/
def conditionsOf : List Filter → List Condition
  | [] => []
  | f :: fs => conditions f ++ conditionsOf fs

end

mutual

/-- The filter with every condition replaced, folded anew; the first replacement that fails, from
the left, fails the whole. -/
def mapConditions (f : Condition → Outcome Filter) : Filter → Outcome Filter
  | .leaf c => f c
  | .conj fs => do return conjoin (← mapConditionsOf f fs)
  | .disj fs => do return disjoin (← mapConditionsOf f fs)
  | .neg g => do return negate (← mapConditions f g)
  | .all => .ok .all
  | .none => .ok .none

/-- The filters with every condition replaced. -/
def mapConditionsOf (f : Condition → Outcome Filter) : List Filter → Outcome (List Filter)
  | [] => .ok []
  | g :: gs => do
    let g ← mapConditions f g
    return g :: (← mapConditionsOf f gs)

end

/-! ## Filters as records -/

mutual

/-- The record form of a filter, which reads back as the same filter. -/
def toRecord : Filter → Record
  | .leaf c =>
    let spec : Record := [(c.operator.name, c.value)]
    let spec := match c.cast with
      | some cast => if cast.isEmpty then spec else Named.insert spec "cast" (.text cast)
      | Option.none => spec
    [(c.field, .record spec)]
  | .conj fs => [("AND", .list (toRecords fs))]
  | .disj fs => [("OR", .list (toRecords fs))]
  | .neg f => [("NOT", .record (toRecord f))]
  | .none => [("OR", .list [])]
  | .all => []

/-- The record forms of several filters. -/
def toRecords : List Filter → List Value
  | [] => []
  | f :: fs => .record (toRecord f) :: toRecords fs

end

end Filter

end Warden
