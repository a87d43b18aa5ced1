import Warden.Database.Dialogue
import Warden.Json.Writer

/-! # Responses

A **`Response`** is a status and a body. A refusal is answered by its sort: a denial of access with
the same response whatever was denied, so that nothing can be learned from it; all else with its
message.
-/

namespace Warden

/-- The statuses of responses. -/
inductive Status where
  | ok
  | created
  | noContent
  | badRequest
  | unauthorized
  | forbidden
  | notFound
  | unavailable
deriving DecidableEq

/-- The line of a status. -/
def Status.line : Status → String
  | .ok => "200 OK"
  | .created => "201 Created"
  | .noContent => "204 No Content"
  | .badRequest => "400 Bad Request"
  | .unauthorized => "401 Unauthorized"
  | .forbidden => "403 Forbidden"
  | .notFound => "404 Not Found"
  | .unavailable => "503 Service Unavailable"

/-- What a caller gets. -/
structure Response where
  /-- The status. -/
  status : Status
  /-- The body, absent if there is none. -/
  body : Value

namespace Response

/-- The response that says what is wrong. -/
def error (status : Status) (message : String) : Response :=
  ⟨status, .record [("error", .text message)]⟩

/-- The response to callers who are not known. -/
def unauthorized : Response :=
  error .unauthorized "Unauthorized"

/-- The response to a body that is no JSON object. -/
def notAnObject : Response :=
  error .badRequest "Request body must be a JSON object"

/-- The response with data. -/
def data (status : Status) (v : Value) : Response :=
  ⟨status, .record [("data", v)]⟩

/-- The response without a body. -/
def empty : Response :=
  ⟨.noContent, .null⟩

/-- The response to a refused request. -/
def ofRefusal (r : Refusal) : Response :=
  match r.sort with
  | .accessDenied => error .forbidden "Forbidden"
  | .notFound => error .notFound r.message
  | _ => error .badRequest r.message

/-- The JSON text of the body. -/
def text (r : Response) : Except Defect String :=
  Json.write .widened r.body

end Response

/-- The dialogue, in which a refusal is answered. -/
def Dialogue.answered (d : Dialogue Response) : Dialogue Response := do
  match ← d.attempt with
  | .ok response => return response
  | .error (.refused r) => return Response.ofRefusal r
  | .error (.broken defect) => breakOff defect

end Warden
