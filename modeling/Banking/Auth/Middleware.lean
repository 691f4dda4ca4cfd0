import Banking.Auth.Repository
import Banking.Transactions.Schemas

/-!
# The gate of the API

`auth.middleware.ts` and `verifyAccessToken` of `token.service.ts`: a request passes with a token
that the library verifies and the row of a user who may use the service, whose current role
decides. An error is what the API answers with.
-/

namespace Banking.Auth

/-- `app-error.ts:1–11`, without the details. -/
structure AppError where
  statusCode : Nat
  code : String
  message : String
  deriving DecidableEq

/-- `app-error.ts:13–17`. -/
def AuthenticationError (message code : String) : AppError := ⟨401, code, message⟩

/-- `app-error.ts:19–23` with its default message. -/
def AuthorizationError : AppError :=
  ⟨403, "FORBIDDEN", "You are not allowed to perform this action"⟩

/-- `new AuthenticationError()`. -/
def authenticationRequired : AppError :=
  AuthenticationError "Authentication required" "UNAUTHENTICATED"

/-! ### Access tokens -/

/-- The claims of a token that are read. -/
structure JWTPayload where
  sub : Option String
  role : Option Json

/-- How `jwtVerify` ends; every exception but `JWTExpired` is treated alike. -/
inductive Verification where
  | verified (payload : JWTPayload)
  | expired
  | invalid

/-- `verifyAccessToken`; `token.service.ts:26–54`. -/
def verifyAccessToken : Verification → Except AppError Banking.Auth
  | .verified payload =>
    match payload.sub.filter (· ≠ ""), payload.role with
    | some userId, some (.str "ADMIN") => .ok ⟨userId, .ADMIN⟩
    | some userId, some (.str "CUSTOMER") => .ok ⟨userId, .CUSTOMER⟩
    | _, _ => .error (AuthenticationError "Invalid access token" "UNAUTHENTICATED")
  | .expired => .error (AuthenticationError "Access token has expired" "ACCESS_TOKEN_EXPIRED")
  | .invalid => .error (AuthenticationError "Invalid access token" "INVALID_ACCESS_TOKEN")

/-- The token of the header; `auth.middleware.ts:10–19`. -/
def bearerToken (authorization : Option String) : Option String :=
  (authorization.filter fun header ↦ "Bearer ".toList.isPrefixOf header.toList).bind fun header ↦
    some (Js.trim (String.ofList (header.toList.drop 7))) |>.filter (· ≠ "")

/-- `authenticate` up to its query: the `userId` to look up; `auth.middleware.ts:9–21`. -/
def authenticate (jwtVerify : String → Verification) (authorization : Option String) :
    Except AppError String :=
  match bearerToken authorization with
  | none => .error authenticationRequired
  | some token => (verifyAccessToken (jwtVerify token)).map Banking.Auth.userId

/-- `findActiveAuthorization`; `auth.repository.ts:51–56`. -/
def findActiveAuthorization (db : Database) (userId : String) : Option UserRole :=
  (db.users.rows.find? fun user ↦
    user.id = userId && user.status = .ACTIVE && user.deletedAt.isNone).map User.role

/-- What becomes `request.auth`, from the answer of the query; `auth.middleware.ts:22–29`. -/
def authorization (userId : String) : Option UserRole → Except AppError Banking.Auth
  | none => .error (AuthenticationError "User is inactive or no longer exists" "UNAUTHENTICATED")
  | some role => .ok ⟨userId, role⟩

/-- `requireRole`; `auth.middleware.ts:34–46`. -/
def requireRole (allowedRoles : List UserRole) (auth : Option Banking.Auth) :
    Except AppError Unit :=
  match auth with
  | none => .error authenticationRequired
  | some auth => if auth.role ∈ allowedRoles then .ok () else .error AuthorizationError

/-! ### What passes -/

variable {jwtVerify : String → Verification} {header : Option String} {userId : String}

/-- Whoever is authenticated has presented a token that verifies for them. -/
theorem authenticate_eq_ok (h : authenticate jwtVerify header = .ok userId) :
    ∃ token payload, bearerToken header = some token ∧ jwtVerify token = .verified payload ∧
      payload.sub = some userId := by
  unfold authenticate at h
  split at h
  · cases h
  · next token htoken =>
    cases hverify : jwtVerify token with
    | expired => simp [hverify, verifyAccessToken, Except.map] at h
    | invalid => simp [hverify, verifyAccessToken, Except.map] at h
    | verified payload =>
      refine ⟨token, payload, htoken, hverify, ?_⟩
      rw [hverify, verifyAccessToken] at h
      split at h
      · next sub _ hsub _ =>
        cases h
        exact (Option.filter_eq_some_iff.mp hsub).1
      · next sub _ hsub _ =>
        cases h
        exact (Option.filter_eq_some_iff.mp hsub).1
      · cases h

/-- A current authorization is that of a user who may use the service. -/
theorem findActiveAuthorization_eq_some {db : Database} {role : UserRole}
    (h : findActiveAuthorization db userId = some role) :
    ∃ user, db.users.find? userId = some user ∧ user.status = .ACTIVE ∧ user.deletedAt = none ∧
      user.role = role := by
  obtain ⟨user, hfound, rfl⟩ := Option.map_eq_some_iff.mp h
  have hmatch := List.find?_some hfound
  simp only [Bool.and_eq_true, decide_eq_true_eq, Option.isNone_iff_eq_none] at hmatch
  obtain ⟨⟨rfl, hactive⟩, hpresent⟩ := hmatch
  exact ⟨user, Relational.Table.find?_of_mem (List.mem_of_find?_eq_some hfound), hactive,
    hpresent, rfl⟩

end Banking.Auth
