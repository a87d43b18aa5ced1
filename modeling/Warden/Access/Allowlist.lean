import Warden.Refusal
import Warden.Text.Blank

/-! # Field allowlists

An **`Allowlist`** is a set of patterns for field paths. A star in the last place matches every
direct field and no relation; before the last place it matches every relation. The bare name of a
relation opens it with all its direct fields. An allowlist without patterns of its own restricts
nothing.

* **`allowsField`** and **`allowsRelation`** ask about one name, **`forRelation`** gives the part
  that applies behind a relation.
* **`allowsPath`** follows a dotted path.
-/

namespace Warden

/-- The pattern segment that matches every name. -/
def wildcard : String := "*"

/-- A set of patterns for field paths; without patterns everything is allowed. -/
structure Allowlist where
  /-- The patterns, each a list of segments. -/
  patterns : Option (List (List String))
deriving DecidableEq

namespace Allowlist

/-- Everything is allowed. -/
def all : Allowlist := ⟨none⟩

/-- Nothing is allowed. -/
def none : Allowlist := ⟨some []⟩

/-- Everything is allowed. -/
def isAll (a : Allowlist) : Bool :=
  a.patterns.isNone

/-- Nothing is allowed. -/
def isEmpty (a : Allowlist) : Bool :=
  a.patterns == some []

/-- The segments of a dotted pattern, without blanks around them. -/
def segments (pattern : String) : List String :=
  (Text.split '.' pattern).map Text.trim

/-- The patterns of a list of field paths; empty and blank entries do not count. -/
def patternsOf : List Value → Outcome (List (List String))
  | [] => .ok []
  | v :: vs =>
    if v.truthy then
      match v with
      | .text s => do
        let rest ← patternsOf vs
        return if (Text.trim s).isEmpty then rest else segments s :: rest
      | _ => breakOff .missingMember
    else patternsOf vs

/-- The allowlist of a rule's list of field paths; without a list everything is allowed. -/
def ofFields (fields : Value) : Outcome Allowlist :=
  match fields with
  | .null => .ok all
  | v => do return ⟨some (← patternsOf (← (v.elements : Except Defect (List Value))))⟩

/-- The segment matches the name. -/
def segmentMatches (segment name : String) : Bool :=
  segment == name || segment == wildcard

/-- The pattern matches the direct field. -/
def matchesField (name : String) : List String → Bool
  | [segment] => segmentMatches segment name
  | _ => false

/-- The pattern opens the relation. -/
def matchesRelation (name : String) : List String → Bool
  | [] => false
  | [segment] => segment == name
  | segment :: _ :: _ => segmentMatches segment name

/-- What a pattern says about the rows behind the relation, if it opens it. -/
def behind? (name : String) : List String → Option (List String)
  | [] => Option.none
  | [segment] => if segment == name then some [wildcard] else Option.none
  | segment :: next :: rest =>
    if segmentMatches segment name then some (next :: rest) else Option.none

/-- The direct field is allowed. -/
def allowsField (a : Allowlist) (name : String) : Bool :=
  match a.patterns with
  | Option.none => true
  | some ps => ps.any (matchesField name)

/-- Something behind the relation is allowed. -/
def allowsRelation (a : Allowlist) (name : String) : Bool :=
  match a.patterns with
  | Option.none => true
  | some ps => ps.any (matchesRelation name)

/-- The allowlist that applies to the rows behind the relation. -/
def forRelation (a : Allowlist) (name : String) : Allowlist :=
  match a.patterns with
  | Option.none => a
  | some ps => ⟨some (ps.filterMap (behind? name)).eraseDups⟩

/-- The path, its last segment a field and all others relations, is allowed. -/
def allowsSegments (a : Allowlist) : List String → Bool
  | [] => false
  | [field] => a.allowsField field
  | relation :: next :: rest =>
    a.allowsRelation relation && (a.forRelation relation).allowsSegments (next :: rest)

/-- The dotted path is allowed. -/
def allowsPath (a : Allowlist) (path : String) : Bool :=
  a.allowsSegments (Text.split '.' path)

end Allowlist

end Warden
