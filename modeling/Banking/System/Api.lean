import Banking.Auth.Middleware
import Banking.Auth.Schemas
import Banking.Auth.Service
import Banking.System.Calls
import Banking.Transactions.Route

/-!
# The system behind its API

The authentication service and the transaction engine with the requests that reach them. Anyone may
log in, refresh and log out; a transaction is created, and a user is registered, only by a request
that passes the gate, whose two waiting points everything else interleaves with. The workers go on
as before. Requests that the rate limit refuses never arrive.
-/

namespace Banking.Api

open Auth (AppError)

/-- The deployments of both parts, `jwtVerify` at a time, and `Bun.password.hash` with its salt,
which may throw. -/
structure Deployment where
  core : Banking.Deployment
  auth : Auth.Deployment
  jwtVerify : Js.Date → String → Auth.Verification
  hash : String → String → Option String

/-! ### The routes -/

/-- The answer to a `ZodError`; `error-handler.ts:192–216`. -/
def validationError : AppError := ⟨400, "VALIDATION_ERROR", "Request validation failed"⟩

/-- The answer to an unknown error; `error-handler.ts:218–222`. -/
def internalError : AppError := ⟨500, "INTERNAL_ERROR", "An unexpected error occurred"⟩

/-- The routes behind the gate that write. -/
inductive Route where
  /-- `POST /transactions` -/
  | createTransaction (body : Option Json) (ip forwardedFor : Option String)
  /-- `POST /users` -/
  | createUser (body : Option Json)

/-- The roles that pass; `transactions.route.ts:18`, `user.routes.ts:12`. -/
def Route.allowedRoles : Route → List UserRole
  | .createTransaction .. => [.CUSTOMER, .ADMIN]
  | .createUser .. => [.ADMIN]

/-- What a handler calls. -/
inductive Work where
  | core (call : Call)
  | auth (call : Auth.Call)

/-- `createUser` up to its insert; `user.service.ts:9–20`. -/
def createUser (d : Deployment) (actor : Banking.Auth) (input : Auth.CreateUserInput)
    (salt : String) : Except AppError Auth.Call :=
  if actor.role ≠ .ADMIN then .error Auth.AuthorizationError
  else
    match d.hash salt input.password with
    | none => .error internalError
    | some passwordHash => .ok (.createUser input.email passwordHash)

/-- The handlers up to their first query, in a process with the listeners `events`;
`transactions.route.ts:20–27`, `user.routes.ts:14–16`. -/
def Route.handle (d : Deployment) (auth : Banking.Auth) (events : Listeners) (salt : String) :
    Route → Except AppError Work
  | .createTransaction body ip forwardedFor =>
    match createTransactionSchema body, postTransaction body events with
    | none, _ => .error validationError
    | some _, none => .error internalError
    | some _, some (input, _) => .ok (.core (.create input ⟨some auth, ip, forwardedFor⟩))
  | .createUser body =>
    match Auth.createUserSchema body with
    | none => .error validationError
    | some input => (Api.createUser d auth input salt).map .auth

/-- From the answer to the query of `authenticate` to the first query of the handler, with the
`request.auth` that the handler sees. -/
def Route.admission (d : Deployment) (route : Route) (userId : String) (found : Option UserRole)
    (events : Listeners) (salt : String) : Except AppError (Banking.Auth × Work) := do
  let auth ← Auth.authorization userId found
  Auth.requireRole route.allowedRoles (some auth)
  let work ← route.handle d auth events salt
  return (auth, work)

/-! ### The system -/

/-- Where a request is. -/
inductive Phase where
  /-- `authenticate` waits for its query. -/
  | authorizing (userId : String)
  /-- The query has been executed. -/
  | answered (userId : String) (found : Option UserRole)
  | refused (error : AppError)
  /-- The request has passed with this `request.auth`, and what it calls runs as process `i`. -/
  | admitted (auth : Banking.Auth) (work : Work) (i : Nat)

/-- The state of the system. -/
structure State where
  core : SystemState
  auth : Auth.SystemState
  request : Nat → Option (Route × Phase)

/-- What can happen next. -/
inductive Action where
  /-- In the engine and the workers: anything but a request. -/
  | core (a : SystemAction)
  /-- In the authentication service: anything but a call. -/
  | auth (a : Auth.SystemAction)
  /-- `POST /auth/login`; the service runs as process `i`. -/
  | login (i : Nat) (body : Option Json)
  /-- `POST /auth/refresh` -/
  | refresh (i : Nat) (body : Option Json)
  /-- `POST /auth/logout` -/
  | logout (i : Nat) (body : Option Json)
  /-- A request with this header arrives at the gate. -/
  | request (j : Nat) (route : Route) (authorization : Option String)
  /-- The query of `authenticate` is executed. -/
  | lookup (j : Nat)
  /-- The request goes on; what it calls runs as process `i`. -/
  | resume (j i : Nat) (events : Listeners) (salt : String)

namespace State

/-- Replace what is known of a request. -/
def setRequest (s : State) (j : Nat) (route : Route) (phase : Phase) : State :=
  { s with request := fun k ↦ if k = j then some (route, phase) else s.request k }

/-- Step of the engine and the workers. -/
def stepCore (d : Deployment) (s : State) (a : SystemAction) : Option State :=
  (Relational.step (begins d.core) s.core a).map fun core ↦ { s with core }

/-- Step of the authentication service. -/
def stepAuth (d : Deployment) (s : State) (a : Auth.SystemAction) : Option State :=
  (Relational.step (Auth.begins d.auth) s.auth a).map fun auth ↦ { s with auth }

end State

/-- A request to the engine starts. -/
def isCreate : SystemAction → Bool
  | .start _ (.create _ _) => true
  | _ => false

/-- A call of the authentication service starts. -/
def isCall : Auth.SystemAction → Bool
  | .start _ _ => true
  | _ => false

/-- One step. -/
def step (d : Deployment) (s : State) : Action → Option State
  | .core a => if isCreate a then none else s.stepCore d a
  | .auth a => if isCall a then none else s.stepAuth d a
  | .login i body => (Auth.loginSchema body).bind fun input ↦
    s.stepAuth d (.start i (.login input.email input.password))
  | .refresh i body => (Auth.refreshTokenSchema body).bind fun token ↦
    s.stepAuth d (.start i (.refresh token))
  | .logout i body => (Auth.refreshTokenSchema body).bind fun token ↦
    s.stepAuth d (.start i (.logout token))
  | .request j route authorization =>
    match s.request j with
    | some _ => none
    | none => some (s.setRequest j route
        (match Auth.authenticate (d.jwtVerify s.auth.clock) authorization with
        | .error error => .refused error
        | .ok userId => .authorizing userId))
  | .lookup j =>
    match s.request j with
    | some (route, .authorizing userId) => some (s.setRequest j route
        (.answered userId (Auth.findActiveAuthorization s.auth.db userId)))
    | _ => none
  | .resume j i events salt =>
    match s.request j with
    | some (route, .answered userId found) =>
      match route.admission d userId found events salt with
      | .error error => some (s.setRequest j route (.refused error))
      | .ok (auth, .core call) =>
        (s.setRequest j route (.admitted auth (.core call) i)).stepCore d (.start i call)
      | .ok (auth, .auth call) =>
        (s.setRequest j route (.admitted auth (.auth call) i)).stepAuth d (.start i call)
    | _ => none

/-- No call has started and no request has arrived. -/
def initial (accounts : Relational.Table Account.id) (users : Relational.Table Auth.User.id)
    (now : Js.Date) : State :=
  ⟨Banking.initial accounts now, Auth.initial users now, fun _ ↦ none⟩

/-- Nobody forges a token: one that verifies has been returned by a call. -/
def Unforged (d : Deployment) (s : State) : Action → Prop
  | .request _ _ authorization => ∀ token payload, Auth.bearerToken authorization = some token →
    d.jwtVerify s.auth.clock token = .verified payload →
    ∃ i call born pair, s.auth.session i = some ⟨call, born, .done (.returned (.tokens pair))⟩ ∧
      pair.accessToken = token
  | _ => True

/-- Runs in which nobody forges a token. -/
abbrev Runs (d : Deployment) : State → State → Prop :=
  Relational.StepsUnder (step d) (Unforged d)

end Banking.Api
