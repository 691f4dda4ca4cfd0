import Banking.Auth.Middleware

/-!
# Opening an account

`account.schemas.ts`, `account.service.ts` and the decisions of `account.repository.ts`, whose
transaction finds the owner and inserts the account.
-/

namespace Banking.Accounts

open Auth (AppError)
open Js (Date)

/-- `app-error.ts:31–35`. -/
def NotFoundError (message code : String) : AppError := ⟨404, code, message⟩

/-- `account.schemas.ts:3`, of the parameters of the path. -/
def accountParamsSchema (userId : String) : Option String := Zod.uuid (some (.str userId))

/-- The `where` of `tx.user.findFirst`; `account.repository.ts:18–21`. -/
def findActiveUser (db : Auth.Database) (userId : String) : Option Auth.User :=
  db.users.rows.find? fun user ↦
    user.id = userId && user.status = .ACTIVE && user.deletedAt.isNone

/-- The row that `tx.account.create` inserts: the owner, and the defaults of `schema.prisma:67–75`;
`account.repository.ts:27–36`. -/
def newAccount (id userId : String) (now : Date) : Account where
  id := id
  userId := userId
  balance := 0
  status := .ACTIVE
  fraudFlaggedAt := none
  createdAt := now
  deletedAt := none

/-- `account.service.ts:5–11`. -/
structure AccountResponse where
  id : String
  userId : String
  balanceMinor : String
  status : AccountStatus
  createdAt : Date

/-- `createAccount` before its query; `account.service.ts:17–19`. -/
def createAccount (actor : Banking.Auth) : Except AppError Unit :=
  if actor.role ≠ .ADMIN then .error Auth.AuthorizationError else .ok ()

/-- The answer when no owner is found; `account.service.ts:22–27`. -/
def accountOwnerNotFound : AppError :=
  NotFoundError "The account owner does not exist or is inactive" "ACCOUNT_OWNER_NOT_FOUND"

/-- What `createAccount` returns; `account.service.ts:29–35`. -/
def accountResponse (account : Account) : AccountResponse where
  id := account.id
  userId := account.userId
  balanceMinor := toString account.balance
  status := account.status
  createdAt := account.createdAt

/-- An owner that is found may use the service. -/
theorem findActiveUser_eq_some {db : Auth.Database} {userId : String} {user : Auth.User}
    (h : findActiveUser db userId = some user) :
    db.users.find? userId = some user ∧ user.id = userId ∧ user.status = .ACTIVE ∧
      user.deletedAt = none := by
  have hmatch := List.find?_some h
  simp only [Bool.and_eq_true, decide_eq_true_eq, Option.isNone_iff_eq_none] at hmatch
  obtain ⟨⟨rfl, hactive⟩, hpresent⟩ := hmatch
  exact ⟨Relational.Table.find?_of_mem (List.mem_of_find?_eq_some h), rfl, hactive, hpresent⟩

end Banking.Accounts
