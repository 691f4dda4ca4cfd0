import Banking.Auth.Repository

/-!
# The authentication service

`AuthService` of `auth.service.ts`, and the calls whose statements interleave: registrations,
logins, refreshes and logouts. The library functions that check passwords, hash tokens and sign
access tokens are parameters.
-/

namespace Banking.Auth

open Js (Date)
open Relational (Tx)

/-- The configuration, and what the service takes from libraries: `Bun.password.verify` and the
signing of an access token may throw. -/
structure Deployment where
  ACCESS_TOKEN_TTL_SECONDS : Nat
  REFRESH_TOKEN_TTL_SECONDS : Nat
  verify : String → String → Option Bool
  hashRefreshToken : String → String
  sign : String → UserRole → String → Date → Option String

/-- `auth.service.ts:10–11`. -/
def DUMMY_PASSWORD_HASH : String :=
  "$argon2id$v=19$m=65536,t=3,p=1$ZK6+pHrGGzs+WrfS38YlwYBzWdv64r1EXBGFXPDRERM" ++
    "$9P3vR9PoeKAvHr4noPptQFPdlcAkTyq2z9ncEjbknac"

/-- `auth.service.ts:13–19`. -/
structure TokenPair where
  accessToken : String
  refreshToken : String
  tokenType : String
  accessTokenExpiresIn : Nat
  refreshTokenExpiresIn : Nat

/-- `createRefreshToken`: 48 random bytes; `token.service.ts:56–58`. -/
def createRefreshToken : Query String where
  result env _ := some env.supply.token

/-- `createAccessToken`; `token.service.ts:14–25`. -/
def createAccessToken (d : Deployment) (userId : String) (role : UserRole) : Query String where
  result env _ := d.sign userId role env.supply.id env.now

/-- The pair that `refresh` and `issueTokenPair` return; `auth.service.ts:67–76` and `:97–103`. -/
def tokenPair (d : Deployment) (userId : String) (role : UserRole) (refreshToken : String) :
    Process TokenPair := do
  let accessToken ← Tx.query (createAccessToken d userId role)
  return ⟨accessToken, refreshToken, "Bearer", d.ACCESS_TOKEN_TTL_SECONDS,
    d.REFRESH_TOKEN_TTL_SECONDS⟩

/-- `issueTokenPair`; `auth.service.ts:86–104`. -/
def issueTokenPair (d : Deployment) (userId : String) (role : UserRole) : Process TokenPair := do
  let refreshToken ← Tx.query createRefreshToken
  let now ← Tx.query Sql.now
  createRefreshSession userId (d.hashRefreshToken refreshToken)
    (now + d.REFRESH_TOKEN_TTL_SECONDS * 1000)
  tokenPair d userId role refreshToken

/-- `login`; `auth.service.ts:24–44`. -/
def login (d : Deployment) (email password : String) : Process TokenPair := do
  let user ← Tx.query (Sql.findUserByEmail email)
  match d.verify password ((user.map User.passwordHash).getD DUMMY_PASSWORD_HASH), user with
  | some true, some user =>
    if user.status ≠ .ACTIVE ∨ user.deletedAt.isSome then Tx.throw
    else issueTokenPair d user.id user.role
  | _, _ => Tx.throw

/-- `refresh`; `auth.service.ts:46–77`. -/
def refresh (d : Deployment) (currentRefreshToken : String) : Process TokenPair := do
  let nextRefreshToken ← Tx.query createRefreshToken
  let now ← Tx.query Sql.now
  let nextExpiresAt := now + d.REFRESH_TOKEN_TTL_SECONDS * 1000
  let user ← rotateRefreshSession ⟨d.hashRefreshToken currentRefreshToken,
    d.hashRefreshToken nextRefreshToken, nextExpiresAt, now⟩
  match user with
  | none => Tx.throw
  | some user =>
    if user.status ≠ .ACTIVE ∨ user.deletedAt.isSome then Tx.throw
    else tokenPair d user.id user.role nextRefreshToken

/-- `logout`; `auth.service.ts:79–84`. -/
def logout (d : Deployment) (refreshToken : String) : Process Unit := do
  let now ← Tx.query Sql.now
  let _ ← revokeRefreshSession (d.hashRefreshToken refreshToken) now
  return ()

/-! ### The system -/

/-- What can be called. -/
inductive Call where
  | createUser (email passwordHash : String)
  | login (email password : String)
  | refresh (refreshToken : String)
  | logout (refreshToken : String)

/-- What a call returns. -/
inductive Reply where
  | tokens (pair : TokenPair)
  | done

/-- The program of a call. -/
def begins (d : Deployment) : Call → Database → Option (Process Reply)
  | .createUser email passwordHash, _ => some do
    Tx.transaction (Tx.query (Sql.createUser email passwordHash))
    return .done
  | .login email password, _ => some do
    let pair ← login d email password
    return .tokens pair
  | .refresh refreshToken, _ => some do
    let pair ← refresh d refreshToken
    return .tokens pair
  | .logout refreshToken, _ => some do
    logout d refreshToken
    return .done

/-- States of the running service. -/
abbrev SystemState := Relational.State Database Lock Supply Call Reply

/-- What can happen in the running service. -/
abbrev SystemAction := Relational.Action Supply Call

/-- Runs of the service. -/
abbrev Runs (d : Deployment) : SystemState → SystemState → Prop := Relational.Runs (begins d)

/-- No call has started, and there is no session. -/
def initial (users : Relational.Table User.id) (now : Date) : SystemState :=
  Relational.State.initial ⟨users, .empty⟩ now

end Banking.Auth
