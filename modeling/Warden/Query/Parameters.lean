import Warden.Json.Reader
import Warden.Query.Request

/-! # Request parameters

Requests arrive as parameters of a query string, where records and lists are written as JSON texts,
or as the members of a JSON object, where they stand as they are. **`Request.ofParameters`** reads
both.
-/

namespace Warden.Parameters

/-- Reads a JSON text; a value that is no text is taken as it is. -/
def decode (name : String) (v : Value) : Outcome Value :=
  match v with
  | .text s =>
    match Json.read s with
    | .ok w => .ok w
    | .error .malformed => refuse (.parameterNotJson name)
    | .error .tooManyDigits => breakOff .invalidValue
  | _ => .ok v

/-- The parameter is absent or an empty text. -/
def isMissing : Value → Bool
  | .null => true
  | .text s => s.isEmpty
  | _ => false

/-- The JSON value of a parameter that is a record or its text, if it is given. -/
def decodeGiven (parameters : Record) (name : String) : Outcome Value :=
  let v := parameters.get name
  if isMissing v then .ok .null else decode name v

/-- The parts of a text between commas, without blanks around them; blank parts do not count. -/
def commaParts (s : String) : List String :=
  ((Text.split ',' s).map Text.trim).filter fun part => !part.isEmpty

/-- The names in a list of texts. -/
def namesOf (name : String) : List Value → Outcome (List String)
  | [] => .ok []
  | .text s :: vs => do return commaParts s ++ (← namesOf name vs)
  | _ :: _ => refuse (.parameterNotStrings name)

/-- Reads names: a list of texts, its JSON text, or texts with commas between them. -/
def readNames (name : String) (v : Value) : Outcome (Option (List String)) :=
  if isMissing v then .ok none
  else
    match v with
    | .text s =>
      let text := Text.trim s
      if text.toList.head? = some '[' then do
        match ← decode name (.text text) with
        | .list items => return some (← namesOf name items)
        | _ => refuse (.parameterNotStrings name)
      else .ok (some (commaParts text))
    | .list items | .tuple items => do return some (← namesOf name items)
    | _ => refuse (.parameterNotStrings name)

/-- Reads an integer, absent if it is not given: an integer, a number without its fraction, or the
text of an integer. -/
def readInteger? (name : String) (v : Value) : Outcome (Option Int) :=
  if isMissing v then .ok none
  else
    match v with
    | .int n => .ok (some n)
    | .float x =>
      match x.extended with
      | .number y => .ok (some y.truncate)
      | .infinite _ => breakOff .overflow
      | .nan => refuse (.parameterNotInteger name)
    | .text s =>
      match IntegerText.read? s with
      | some n => .ok (some n)
      | none => refuse (.parameterNotInteger name)
    | _ => refuse (.parameterNotInteger name)

/-- Reads a switch: certain words turn it on, and every value that counts as true. -/
def readSwitch (v : Value) : Bool :=
  match v with
  | .text s => ["1", "true", "yes"].contains (Text.lower (Text.trim s))
  | v => v.truthy

/-- Reads the order: a JSON text of a list or record stands for what it says. -/
def readSort (v : Value) : Outcome (List SortKey) :=
  match v with
  | .text s =>
    match (Text.trim s).toList with
    | '[' :: _ | '\x7b' :: _ => do SortKey.readAll (← decode "sort" v)
    | _ => SortKey.readAll v
  | v => SortKey.readAll v

/-- The members of a parameter that must be a record; a value that counts as false has none. -/
def readRecord (name : String) (v : Value) : Outcome Record :=
  if v.truthy then
    match v with
    | .record members => .ok members
    | _ => refuse (.parameterNotObject name)
  else .ok []

/-- The fields asked for. -/
def readFields (parameters : Record) : Outcome (Option (List String)) :=
  readNames "fields" (parameters.get "fields")

end Warden.Parameters

namespace Warden

open Parameters in
/-- Reads a request on a collection. -/
def Request.ofParameters (collection : String) (parameters : Record) (defaultLimit : Int) :
    Outcome Request := do
  let filter ← decodeGiven parameters "filter"
  let aggregate ← decodeGiven parameters "aggregate"
  let relConditions ← decodeGiven parameters "relConditions"
  match filter with
  | .null | .record _ => pure ()
  | _ => refuse (.parameterNotObject "filter")
  let aggregate ← readRecord "aggregate" aggregate
  let relConditions ← readRecord "relConditions" relConditions
  let search ← match parameters.get "search" with
    | .null => pure none
    | .text s => pure (if s.isEmpty then none else some s)
    | _ => refuse .searchNotString
  let fields ← readFields parameters
  let sort ← readSort (parameters.get "sort")
  let page ← readInteger? "page" (parameters.get "page")
  let limit ← readInteger? "limit" (parameters.get "limit")
  let offset ← readInteger? "offset" (parameters.get "offset")
  let searchFields ← readNames "searchFields" (parameters.get "searchFields")
  let aggregate ← aggregate.mapM fun (label, v) => do return (label, ← Aggregate.read label v)
  let groups ← readNames "groupBy" (parameters.get "groupBy")
  let groupBy ← (groups.getD []).mapM fun g => GroupKey.read (.text g)
  return {
    collection, fields, sort, offset, search, searchFields, aggregate, groupBy
    filter := .raw filter
    page := page.getD 1
    limit := limit.getD defaultLimit
    sortByRelevance := readSwitch (parameters.get "sortByRelevance")
    relConditions := relConditions.map fun (name, v) => (name, .raw v) }

end Warden
