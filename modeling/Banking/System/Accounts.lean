import Banking.Accounts.Service
import Banking.System.Api

/-!
# The system that opens accounts

The API together with `POST /users/:userId/accounts`. A request to open an account passes the same
gate as the others and then runs a transaction of its own, while everything else goes on. A request
whose connection fails ends without having written anything, or has lost the answer to a commit that
took place.
-/

namespace Banking.Accounts

open Auth (AppError)

/-- Where a request to open an account is; from the gate on it has its `request.auth`. -/
inductive Phase where
  /-- `authenticate` waits for its query. -/
  | authorizing (userId : String)
  /-- The query has been executed. -/
  | answered (userId : String) (found : Option UserRole)
  | refused (error : AppError)
  /-- The transaction has begun. -/
  | finding (auth : Banking.Auth) (owner : String)
  /-- The owner has been found. -/
  | inserting (auth : Banking.Auth) (owner : String)
  /-- The account is inserted, and not yet committed. -/
  | inserted (auth : Banking.Auth) (account : Account)
  | opened (auth : Banking.Auth) (response : AccountResponse)
  /-- The account is committed, and the connection has failed before the answer. -/
  | lost (auth : Banking.Auth) (account : Account)
  /-- The database has rejected the insert, or the connection has failed before the commit. -/
  | failed

/-- The API, and the requests to open an account with the parameter of their path. -/
structure State extends Api.State where
  opening : Nat → Option (String × Phase)

/-- What can happen next. -/
inductive Action where
  /-- In everything else. -/
  | api (a : Api.Action)
  /-- A request with this header arrives at the gate. -/
  | request (j : Nat) (userId : String) (authorization : Option String)
  /-- The query of `authenticate` is executed. -/
  | lookup (j : Nat)
  /-- The request goes on until its transaction begins. -/
  | resume (j : Nat)
  /-- The owner is looked up. -/
  | find (j : Nat)
  /-- The account is inserted under a generated identifier. -/
  | insert (j : Nat) (id : String)
  | commit (j : Nat)
  /-- The transaction commits, and the connection fails before the answer. -/
  | lose (j : Nat)
  /-- The connection fails. -/
  | fail (j : Nat)

/-- From the answer to the query of `authenticate` to the transaction, with the owner to find;
`user.routes.ts:12–20`, `account.routes.ts:10–12`. -/
def admission (userId : String) (actor : String) (found : Option UserRole) :
    Except AppError (Banking.Auth × String) := do
  let auth ← Auth.authorization actor found
  Auth.requireRole [.ADMIN] (some auth)
  match accountParamsSchema userId with
  | none => .error Api.validationError
  | some owner =>
    createAccount auth
    return (auth, owner)

/-- The account appears. -/
def addAccount (account : Account) (db : Database) : Database :=
  { db with accounts := db.accounts.insert account }

namespace State

/-- Replace what is known of a request. -/
def setOpening (s : State) (j : Nat) (userId : String) (phase : Phase) : State :=
  { s with opening := fun k ↦ if k = j then some (userId, phase) else s.opening k }

/-- The account appears. -/
def addAccount (s : State) (account : Account) : State :=
  { s with core := { s.core with db := Accounts.addAccount account s.core.db } }

/-- The inserted account is committed; the unique index has kept other inserts of its identifier
waiting. -/
def commit (s : State) (j : Nat) (ended : Banking.Auth → Account → Phase) : Option State :=
  match s.opening j with
  | some (userId, .inserted auth account) =>
    if (s.core.db.accounts.find? account.id).isSome then none
    else some ((s.addAccount account).setOpening j userId (ended auth account))
  | _ => none

end State

/-- One step. -/
def step (d : Api.Deployment) (s : State) : Action → Option State
  | .api a => (Api.step d s.toState a).map fun api ↦ { s with toState := api }
  | .request j userId authorization =>
    match s.opening j with
    | some _ => none
    | none => some (s.setOpening j userId
        (match Auth.authenticate (d.jwtVerify s.auth.clock) authorization with
        | .error error => .refused error
        | .ok actor => .authorizing actor))
  | .lookup j =>
    match s.opening j with
    | some (userId, .authorizing actor) => some (s.setOpening j userId
        (.answered actor (Auth.findActiveAuthorization s.auth.db actor)))
    | _ => none
  | .resume j =>
    match s.opening j with
    | some (userId, .answered actor found) => some (s.setOpening j userId
        (match admission userId actor found with
        | .error error => .refused error
        | .ok (auth, owner) => .finding auth owner))
    | _ => none
  | .find j =>
    match s.opening j with
    | some (userId, .finding auth owner) => some (s.setOpening j userId
        (match findActiveUser s.auth.db owner with
        | none => .refused accountOwnerNotFound
        | some user => .inserting auth user.id))
    | _ => none
  | .insert j id =>
    match s.opening j with
    | some (userId, .inserting auth owner) => some (s.setOpening j userId
        (if (s.core.db.accounts.find? id).isSome then .failed
        else .inserted auth (newAccount id owner s.core.clock)))
    | _ => none
  | .commit j => s.commit j fun auth account ↦ .opened auth (accountResponse account)
  | .lose j => s.commit j .lost
  | .fail j =>
    match s.opening j with
    | some (_, .refused _) => none
    | some (_, .opened _ _) => none
    | some (_, .lost _ _) => none
    | some (userId, _) => some (s.setOpening j userId .failed)
    | none => none

/-- No call has started and no request has arrived. -/
def initial (accounts : Relational.Table Account.id) (users : Relational.Table Auth.User.id)
    (now : Js.Date) : State :=
  ⟨Api.initial accounts users now, fun _ ↦ none⟩

/-- The call asks for a transaction of the account. -/
def Names (id : String) : Call → Prop
  | .create input _ => input.accountId = id
  | _ => False

/-- Nobody has asked for the account that the request is about to commit. -/
def Unguessed (s : State) (j : Nat) : Prop :=
  ∀ userId auth account, s.opening j = some (userId, .inserted auth account) →
    ∀ i x, s.core.session i = some x → ¬ Names account.id x.call

/-- Nobody forges a token, and nobody has guessed the generated identifier of an account before the
account is there. -/
def Honest (d : Api.Deployment) (s : State) : Action → Prop
  | .api a => Api.Unforged d s.toState a
  | .request j _ authorization =>
    ∀ route, Api.Unforged d s.toState (.request j route authorization)
  | .commit j => Unguessed s j
  | .lose j => Unguessed s j
  | _ => True

/-- Runs in which nobody forges a token or guesses an identifier. -/
abbrev Runs (d : Api.Deployment) : State → State → Prop := Relational.StepsUnder (step d) (Honest d)

end Banking.Accounts
