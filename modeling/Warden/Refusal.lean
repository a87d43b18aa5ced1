import Warden.Filter.Operator
import Warden.Value.Printed

/-! # Refusals

A **refusal** is the reason why a request is turned down. Each reason is a constructor with what it
is about; its sort (`Refusal.sort`) decides how the caller is answered, its text
(`Refusal.message`) is what the caller may read. A denial of access never says why.

**`Failure`** is either a refusal or a defect, and **`Outcome`** a result or a failure.
-/

namespace Warden

/-- How a refusal is answered. -/
inductive RefusalSort where
  /-- The filter, a path or the shape of the query is invalid. -/
  | malformedFilter
  /-- An operator is unknown or does not apply to the field. -/
  | invalidOperator
  /-- A value does not have the shape its operator requires. -/
  | typeMismatch
  /-- The caller may not do this. -/
  | accessDenied
  /-- A variable refers to something the caller's profile does not have. -/
  | unresolvableVariable
  /-- A field is neither aggregated nor a group key. -/
  | incompatibleAggregate
  /-- There is no such thing. -/
  | notFound
  /-- Data to be stored is invalid. -/
  | validation
deriving DecidableEq

/-- What can be missing. -/
inductive Thing where
  | collection
  | item
  | role
  | permission
deriving DecidableEq

/-- The name of a kind of thing. -/
def Thing.label : Thing → String
  | .collection => "Collection"
  | .item => "Item"
  | .role => "Role"
  | .permission => "Permission"

/-- Why a request is turned down. -/
inductive Refusal where
  -- operators and their values
  | unknownOperator (name field : String)
  | operatorNotSupported (operator : Operator) (family : TypeFamily) (field : String)
  | shapeMismatch (operator : Operator) (field : String)
  -- filters
  | filterNotObject
  | emptyFilterKey
  | negationNotObject
  | connectiveNotList (connective : String)
  | noOperator (field : String)
  | castNotSupported (cast : Value) (field : String)
  | unknownCast (cast field : String)
  | isNotNullNotBool (field : String)
  | pathTooDeep (path : String) (limit : Int)
  | relConditionsNotObject
  | unknownRelation (relation collection : String)
  -- paths through a schema
  | notARelation (segment collection : String)
  | danglingRelation (relation : String)
  | relationNotField (path : String)
  | unknownField (path collection : String)
  | missingJoinKeys (relation : String)
  -- request parameters
  | parameterNotJson (parameter : String)
  | parameterNotObject (parameter : String)
  | parameterNotStrings (parameter : String)
  | parameterNotInteger (parameter : String)
  | searchNotString
  | invalidSortEntry (entry : Value)
  | invalidSortDirection (direction : String)
  | invalidSort (specification : Value)
  | invalidAggregate (label : String)
  | unknownAggregateFunction (function : Value) (label : String)
  | aggregateWithoutField (label : String)
  | aggregateNeedsField (label : String)
  | invalidGroupKey (entry : Value)
  | unknownDatePart (part : String)
  -- compiling a query
  | unknownAggregateField (field label : String)
  | aggregateNotNumeric (label function : String)
  | unknownGroupField (field : String)
  | groupFieldNotTemporal (part field : String)
  | fieldNotGrouped (field : String)
  | sortNotGrouped (field : String)
  | sortTooDeep (path : String)
  | sortByToMany (relation : String)
  | unknownSortField (path : String)
  | unknownSearchField (field : String)
  | fieldNotSearchable (field : String)
  | invalidLimit (limit : Int)
  | invalidOffset (offset : Int)
  | invalidPage (page : Int)
  -- access
  | accessDenied
  | unknownVariableField (token path : String)
  | notFound (thing : Thing) (identifier : String)
  -- stored definitions
  | collectionWithoutFields (collection : String)
  | invalidFieldDefinition (collection field : String)
  | unknownFieldType (type : Value) (collection field : String)
  | unknownRelationType (type : Value) (collection relation : String)
  | relationWithoutTarget (collection relation : String)
  -- data to be written
  | payloadNotObject
  | emptyUpdate
  | relationWithoutForeignKey (relation : String)
  | unknownPayloadField (field collection : String)
  | unknownDefaultField (field collection : String)
  | relationTargetUnknown (relation target : String)
  | relationTakesOne (relation : String)
  | relationTakesList (relation : String)
  -- permission rules
  | ruleFieldsNotPaths
  | ruleConditionsNotObject
  | ruleDefaultsNotObject
  | ruleDefaultUnknown (field : String)
  | ruleKeysNotUpdatable (keys : List String)
  | ruleExists (role action collection : String)
  | missingRuleField (field : String)
  | invalidUuid (name : String)
  | invalidAction (action : Value)

namespace Refusal

/-- How the refusal is answered. -/
def sort : Refusal → RefusalSort
  | .unknownOperator .. | .operatorNotSupported .. | .unknownCast .. => .invalidOperator
  | .shapeMismatch .. => .typeMismatch
  | .accessDenied => .accessDenied
  | .unknownVariableField .. => .unresolvableVariable
  | .fieldNotGrouped .. | .sortNotGrouped .. => .incompatibleAggregate
  | .notFound .. => .notFound
  | .collectionWithoutFields .. | .invalidFieldDefinition .. | .unknownFieldType ..
  | .unknownRelationType .. | .relationWithoutTarget .. | .payloadNotObject | .emptyUpdate
  | .relationWithoutForeignKey .. | .unknownPayloadField .. | .unknownDefaultField ..
  | .relationTargetUnknown .. | .relationTakesOne .. | .relationTakesList ..
  | .ruleFieldsNotPaths | .ruleConditionsNotObject | .ruleDefaultsNotObject
  | .ruleDefaultUnknown .. | .ruleKeysNotUpdatable .. | .ruleExists .. | .missingRuleField ..
  | .invalidUuid .. | .invalidAction .. => .validation
  | _ => .malformedFilter

/-- What the caller may read. -/
def message : Refusal → String
  | .unknownOperator name field =>
    if field.isEmpty then s!"Unknown operator '{name}'"
    else s!"Unknown operator '{name}' on field '{field}'"
  | .operatorNotSupported operator family field =>
    s!"Operator '{operator.name}' is not supported on {family.name} field '{field}'"
  | .shapeMismatch operator field =>
    s!"Operator '{operator.name}' on field '{field}' {operator.shape.expectation}"
  | .filterNotObject => "Filter must be an object"
  | .emptyFilterKey => "Invalid filter key: ''"
  | .negationNotObject => "NOT expects a filter object"
  | .connectiveNotList connective => s!"{connective} expects a list of filter objects"
  | .noOperator field => s!"No operator given for field '{field}'"
  | .castNotSupported cast field => s!"Unsupported cast '{cast.display}' on field '{field}'"
  | .unknownCast cast field => s!"Unsupported cast '{cast}' on field '{field}'"
  | .isNotNullNotBool field => s!"Operator 'isNotNull' on field '{field}' expects true or false"
  | .pathTooDeep path limit =>
    s!"Field path '{path}' exceeds the maximum relation depth of {limit}"
  | .relConditionsNotObject => "relConditions must be an object"
  | .unknownRelation relation collection => s!"Unknown relation '{relation}' on '{collection}'"
  | .notARelation segment collection => s!"'{segment}' is not a relation of '{collection}'"
  | .danglingRelation relation => s!"Relation '{relation}' points to an unknown collection"
  | .relationNotField path => s!"'{path}' is a relation, not a field"
  | .unknownField path collection => s!"Unknown field '{path}' on '{collection}'"
  | .missingJoinKeys relation => s!"Relation '{relation}' is missing its join keys"
  | .parameterNotJson parameter => s!"Parameter '{parameter}' is not valid JSON"
  | .parameterNotObject parameter => s!"Parameter '{parameter}' must be an object"
  | .parameterNotStrings parameter => s!"Parameter '{parameter}' must be a list of strings"
  | .parameterNotInteger parameter => s!"Parameter '{parameter}' must be an integer"
  | .searchNotString => "Parameter 'search' must be a string"
  | .invalidSortEntry entry => s!"Invalid sort entry: {entry.written}"
  | .invalidSortDirection direction => s!"Invalid sort direction '{direction}'"
  | .invalidSort specification => s!"Invalid sort specification: {specification.written}"
  | .invalidAggregate label => s!"Invalid aggregate '{label}'"
  | .unknownAggregateFunction function label =>
    s!"Unknown aggregate function '{function.display}' in '{label}'"
  | .aggregateWithoutField label => s!"Aggregate '{label}' needs a field"
  | .aggregateNeedsField label => s!"Aggregate '{label}': only count accepts '*'"
  | .invalidGroupKey entry => s!"Invalid groupBy entry: {entry.written}"
  | .unknownDatePart part => s!"Unknown date part '{part}'"
  | .unknownAggregateField field label => s!"Unknown aggregate field '{field}' in '{label}'"
  | .aggregateNotNumeric label function =>
    s!"Aggregate '{label}': {function} needs a numeric field"
  | .unknownGroupField field => s!"Unknown groupBy field '{field}'"
  | .groupFieldNotTemporal part field =>
    s!"Date part '{part}' needs a date or time field, got '{field}'"
  | .fieldNotGrouped field => s!"Field '{field}' must be aggregated or listed in groupBy"
  | .sortNotGrouped field => s!"Sort field '{field}' must be an aggregate or groupBy key"
  | .sortTooDeep path => s!"Sort path '{path}' exceeds the maximum relation depth"
  | .sortByToMany relation => s!"Cannot sort by to-many relation '{relation}'"
  | .unknownSortField path => s!"Unknown sort field '{path}'"
  | .unknownSearchField field => s!"Unknown search field '{field}'"
  | .fieldNotSearchable field => s!"Field '{field}' is not searchable"
  | .invalidLimit limit => s!"Invalid limit {limit}"
  | .invalidOffset offset => s!"Invalid offset {offset}"
  | .invalidPage page => s!"Invalid page {page}"
  | .accessDenied => "Access denied"
  | .unknownVariableField token path =>
    s!"Variable '{token}' references unknown field '{path}'"
  | .notFound thing identifier =>
    if identifier.isEmpty then s!"{thing.label} not found"
    else s!"{thing.label} '{identifier}' not found"
  | .collectionWithoutFields collection => s!"Collection '{collection}' has no fields"
  | .invalidFieldDefinition collection field =>
    s!"Invalid definition of field '{collection}.{field}'"
  | .unknownFieldType type collection field =>
    s!"Unknown type {type.written} for field '{collection}.{field}'"
  | .unknownRelationType type collection relation =>
    s!"Unsupported relation type {type.written} on '{collection}.{relation}'"
  | .relationWithoutTarget collection relation =>
    s!"Relation '{collection}.{relation}' has no target"
  | .payloadNotObject => "Payload must be an object"
  | .emptyUpdate => "Nothing to update"
  | .relationWithoutForeignKey relation => s!"Relation '{relation}' is missing its foreign key"
  | .unknownPayloadField field collection => s!"Unknown field '{field}' on '{collection}'"
  | .unknownDefaultField field collection =>
    s!"Default value for unknown field '{field}' on '{collection}'"
  | .relationTargetUnknown relation target =>
    s!"Relation '{relation}' points to unknown '{target}'"
  | .relationTakesOne relation => s!"Relation '{relation}' takes a single item"
  | .relationTakesList relation => s!"Relation '{relation}' takes a list of items"
  | .ruleFieldsNotPaths => "fields must be a list of field paths"
  | .ruleConditionsNotObject => "conditions must be an object"
  | .ruleDefaultsNotObject => "defaultValues must be an object"
  | .ruleDefaultUnknown field => s!"Default value for unknown field '{field}'"
  | .ruleKeysNotUpdatable keys => "Cannot update " ++ String.intercalate ", " keys
  | .ruleExists role action collection =>
    s!"Role '{role}' already has a {action} permission on '{collection}'"
  | .missingRuleField field => s!"Missing required field: {field}"
  | .invalidUuid name => s!"Invalid {name}"
  | .invalidAction action => s!"Invalid action {action.written}"

end Refusal

/-- Why there is no result. -/
inductive Failure where
  /-- The request is turned down. -/
  | refused (reason : Refusal)
  /-- The computation broke off. -/
  | broken (defect : Defect)

/-- A result or the reason why there is none. -/
abbrev Outcome := Except Failure

/-- Turns the request down. -/
def refuse {α : Type} (reason : Refusal) : Outcome α :=
  .error (.refused reason)

/-- Breaks the computation off. -/
def breakOff {α : Type} (defect : Defect) : Outcome α :=
  .error (.broken defect)

/-- A computation that may break off, as one that may also be turned down. -/
def Outcome.ofDefect {α : Type} : Except Defect α → Outcome α
  | .ok a => .ok a
  | .error defect => .error (.broken defect)

instance : MonadLift (Except Defect) (Except Failure) where
  monadLift := Outcome.ofDefect

end Warden
