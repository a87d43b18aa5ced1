import Warden.Service.Basic

/-! # Authentication

Who sends a request is told by its token. The token is handed to an **`Introspection`**, which says
what it knows of it; without a token the caller is anonymous, in the public role.

A caller's role does not depend on the order of the roles in the token: of those that are in the
table of roles it is the first by name.
-/

namespace Warden

/-- What is known of a token: claims, or nothing if the token could not be looked up. -/
abbrev Introspection := String → Option Value

/-- What a request says about who sends it. -/
structure Credentials where
  /-- The path that is asked for. -/
  path : String
  /-- The header with the token. -/
  authorization : Option String
  /-- The address the request came from. -/
  address : Option String

/-- What a valid token says. -/
structure TokenUser where
  /-- The identifier of the user. -/
  id : Value
  /-- The address of the user's mail. -/
  email : Value
  /-- The name of the user. -/
  username : Value
  /-- The names of the user's roles. -/
  roles : List Value
  /-- The tenant. -/
  tenant : Option String
  /-- All other claims. -/
  claims : Record

namespace TokenUser

/-- The claims about the token itself. -/
def tokenClaims : List String := [
  "active", "exp", "iat", "nbf", "iss", "aud", "azp", "jti", "typ", "scope", "sid", "realm_access"]

/-- The names of roles in claims. -/
def readRoles (claims : Record) : Outcome (List Value) :=
  match (Named.find? claims "realm_access").getD (.record []) with
  | .record access => Outcome.ofDefect ((Named.find? access "roles").getD (.list [])).elements
  | _ => breakOff .missingMember

/-- Reads claims; tokens that are not active say nothing. -/
def read (tenantClaim : String) (v : Value) : Outcome (Option TokenUser) :=
  match v with
  | .record claims => do
    if !(Record.get claims "active").truthy then return none
    let tenant := Record.get claims tenantClaim
    return some {
      id := (Named.find? claims "sub").getD (.text "")
      email := Record.get claims "email"
      username := Record.get claims "preferred_username"
      roles := ← readRoles claims
      tenant := if tenant.isNull then none else some tenant.display
      claims := List.filter (fun entry => !tokenClaims.contains entry.1) claims }
  | _ => breakOff .missingMember

/-- The profile of the user. -/
def profile (u : TokenUser) : Record :=
  (u.claims.insert "email" u.email).insert "username" u.username

/-- The caller who is this user, in a role that was found. -/
def caller (u : TokenUser) (adminRole : String) (role : Option Role) (address : Option String) :
    Caller where
  user := some {
    id := u.id
    role := match role with
      | some r => .text r.name
      | none => .null
    isAdmin := u.roles.any (Value.same (.text adminRole))
    profile := u.profile }
  role := role
  tenant := u.tenant
  ip := address

end TokenUser

/-! ## Roles -/

/-- The roles with the names that are in the table of roles. -/
def Role.fetchKnown : List Value → Dialogue (List Role)
  | [] => return []
  | name :: rest => do
    match ← Role.fetchNamed? name with
    | some role => return role :: (← fetchKnown rest)
    | none => fetchKnown rest

/-- The first role by name of those that are in the table of roles. -/
def Role.fetchFirst (names : List Value) : Dialogue (Option Role) := do
  let lookUp : Dialogue (List Role) := do
    Role.fetchKnown (← Outcome.ofDefect (Value.ordered names))
  return (← lookUp.transaction).head?

/-! ## Callers -/

/-- What stands before a token in its header. -/
def bearerMark : String := "Bearer "

/-- The token in a header, if it holds one. -/
def bearerToken? (authorization : Option String) : Option String :=
  match authorization with
  | some s =>
    if bearerMark.toList.isPrefixOf s.toList then
      some (String.ofList (s.toList.drop bearerMark.toList.length))
    else none
  | none => none

/-- Requests for this path and those below it need no caller. -/
def healthPath : String := "/v1/health"

namespace Service

/-- The anonymous caller in the public role. -/
def anonymous (s : Service) (address : Option String) : Dialogue Caller := do
  return {
    user := none
    role := ← Role.fetchFirst [.text s.settings.publicRole]
    tenant := none
    ip := address }

/-- The user of a token; nobody without an introspection or a valid token. -/
def tokenUser (s : Service) (introspection : Option Introspection) (token : String) :
    Outcome (Option TokenUser) :=
  match introspection.bind fun introspect => introspect token with
  | some claims => TokenUser.read s.settings.tenantClaim claims
  | none => .ok none

/-- Who sends a request: absent if the token is not valid. Of requests that need no caller nothing
is said. -/
def authenticate (s : Service) (introspection : Option Introspection) (c : Credentials) :
    Dialogue (Option (Option Caller)) := do
  if healthPath.toList.isPrefixOf c.path.toList then return none
  match bearerToken? c.authorization with
  | none => return some (some (← s.anonymous c.address))
  | some token =>
    match ← s.tokenUser introspection token with
    | none => return some none
    | some u => do
      let role ← Role.fetchFirst u.roles
      return some (some (u.caller s.settings.adminRole role c.address))

end Service

end Warden
