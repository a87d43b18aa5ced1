import Warden.Service.Response

/-! # Origins

Scripts of other origins may read responses if their origin is allowed; a star allows all of them.
Before they send a request, browsers ask whether they may: such a preflight is answered at once.
-/

namespace Warden.Origins

/-- Allows every origin. -/
def anyOrigin : String := "*"

/-- The origin may read responses. -/
def allows (origins : List String) (origin : String) : Bool :=
  !origin.isEmpty && (origins.contains anyOrigin || origins.contains origin)

/-- The headers that tell an origin what it may do. -/
def headers (origins : List String) (origin : Option String) : List (String × String) :=
  match origin with
  | some o =>
    if allows origins o then [
      ("Access-Control-Allow-Origin", o), ("Vary", "Origin"),
      ("Access-Control-Allow-Methods", "GET, POST, PATCH, DELETE, OPTIONS"),
      ("Access-Control-Allow-Headers", "Authorization, Content-Type"),
      ("Access-Control-Max-Age", "86400")]
    else []
  | none => []

/-- The request is a preflight. -/
def isPreflight (method : String) : Bool :=
  method == "OPTIONS"

/-- What the answer to a request has got so far. -/
structure Answer where
  /-- The line of the status. -/
  status : Option String
  /-- Nothing further is done. -/
  complete : Bool
  /-- The headers, in the order in which they were set. -/
  headers : List (String × String)

/-- Answers a request if it is a preflight. -/
def onRequest (origins : List String) (method : String) (origin : Option String) (a : Answer) :
    Answer :=
  if isPreflight method then
    { status := some Status.noContent.line, complete := true
      headers := a.headers ++ Origins.headers origins origin }
  else a

/-- Sets the headers of a response. -/
def onResponse (origins : List String) (origin : Option String) (a : Answer) : Answer :=
  { a with headers := a.headers ++ Origins.headers origins origin }

end Warden.Origins
