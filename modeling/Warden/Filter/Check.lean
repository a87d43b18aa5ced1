import Warden.Refusal

/-! # Checking operators and values

An operator must be known, must apply to the family of the field it compares and must have a value
of its shape. Each check names the field it refuses.
-/

namespace Warden.Operator

/-- The operator with a name or another spelling. -/
def ofName (name field : String) : Outcome Operator :=
  match ofName? name with
  | some op => .ok op
  | none => refuse (.unknownOperator name field)

/-- Refuses an operator that does not apply to the family. -/
def checkApplies (op : Operator) (family : TypeFamily) (field : String) : Outcome Unit :=
  if op.appliesTo family then .ok () else refuse (.operatorNotSupported op family field)

/-- Refuses a value that does not have the operator's shape. -/
def checkValue (op : Operator) (v : Value) (field : String) : Outcome Unit := do
  if ← (op.shape.accepts v : Except Defect Bool) then return ()
  else refuse (.shapeMismatch op field)

/-- Refuses an operator and value that a field of the family cannot be compared with. -/
def check (op : Operator) (family : TypeFamily) (v : Value) (field : String) : Outcome Unit := do
  op.checkApplies family field
  op.checkValue v field

end Warden.Operator
