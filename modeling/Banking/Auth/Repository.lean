import Banking.Database.Tables
import Banking.Relational.Interleaving

/-!
# The authentication repository

The users, the refresh sessions, and the statements that `auth.repository.ts` and
`user.repository.ts` issue on them. A session is found under the hash of its token, which is
unique. No code updates or deletes a user.
-/

namespace Banking.Auth

open Js (Date)
open Relational (Env Stmt Table Tx)

/-! ### The tables -/

/-- `prisma/schema.prisma:15–18`. -/
inductive UserStatus where
  | ACTIVE
  | INACTIVE
  deriving DecidableEq

/-- `prisma/schema.prisma:53–65`. -/
structure User where
  id : String
  email : String
  passwordHash : String
  role : UserRole
  status : UserStatus
  deletedAt : Option Date

/-- `prisma/schema.prisma:84–95`. -/
structure RefreshSession where
  tokenHash : String
  userId : String
  expiresAt : Date
  revokedAt : Option Date

/-- The committed rows. -/
structure Database where
  users : Table User.id
  refreshSessions : Table RefreshSession.tokenHash

namespace Database

/-- Add a user. -/
def addUser (db : Database) (user : User) : Database := { db with users := db.users.insert user }

/-- Add a session. -/
def addSession (db : Database) (session : RefreshSession) : Database :=
  { db with refreshSessions := db.refreshSessions.insert session }

/-- Store the time of the revocation. -/
def revoke (db : Database) (tokenHash : String) (now : Date) : Database :=
  { db with
    refreshSessions := db.refreshSessions.modify tokenHash
      (fun session ↦ { session with revokedAt := some now }) (fun _ ↦ rfl) }

/-- Adding a user leaves the sessions alone. -/
@[simp] theorem refreshSessions_addUser (db : Database) (user : User) :
    (db.addUser user).refreshSessions = db.refreshSessions := rfl

/-- Adding a session leaves the users alone. -/
@[simp] theorem users_addSession (db : Database) (session : RefreshSession) :
    (db.addSession session).users = db.users := rfl

/-- A revocation leaves the users alone. -/
@[simp] theorem users_revoke (db : Database) (tokenHash : String) (now : Date) :
    (db.revoke tokenHash now).users = db.users := rfl

/-- A revocation changes the one session. -/
theorem find?_revoke (db : Database) (tokenHash h : String) (now : Date) :
    (db.revoke tokenHash now).refreshSessions.find? h =
      if h = tokenHash then
        (db.refreshSessions.find? tokenHash).map
          fun session ↦ { session with revokedAt := some now }
      else db.refreshSessions.find? h := by
  rw [revoke, Table.find?_modify]

end Database

/-! ### The statements -/

/-- Row locks of sessions, and the entries of unique indexes that an insert occupies. -/
inductive Lock where
  | session (tokenHash : String)
  | tokenHash (tokenHash : String)
  | email (email : String)
  | userPk (id : String)
  deriving DecidableEq

/-- What the environment chooses: generated identifiers and random tokens. -/
structure Supply where
  id : String
  token : String

/-- A statement with result `β`. -/
abbrev Query (β : Type) := Stmt Database Lock Supply β

/-- A process with result `α`. -/
abbrev Process (α : Type) := Tx Database Lock Supply α

namespace Sql

/-- `new Date()` and `Date.now()`. -/
def now : Query Date where
  result env _ := some env.now

/-- `findUserByEmail`; `auth.repository.ts:37–49`. -/
def findUserByEmail (email : String) : Query (Option User) where
  result _ db := some (db.users.rows.find? (fun user ↦ user.email = email))

/-- `user.create`; `user.repository.ts:21–31`. The other columns have their defaults. -/
def createUser (email passwordHash : String) : Query Unit where
  locks env _ := [.email email, .userPk env.supply.id]
  result env db :=
    if db.users.rows.all (fun user ↦ user.email ≠ email) &&
        (db.users.find? env.supply.id).isNone then some ()
    else none
  write env _ db := db.addUser ⟨env.supply.id, email, passwordHash, .CUSTOMER, .ACTIVE, none⟩

/-- `refreshSession.create`; `userId` is a foreign key. -/
def createRefreshSession (userId tokenHash : String) (expiresAt : Date) : Query Unit where
  locks _ _ := [.tokenHash tokenHash]
  result _ db :=
    if (db.refreshSessions.find? tokenHash).isNone && (db.users.find? userId).isSome then some ()
    else none
  write _ _ db := db.addSession ⟨tokenHash, userId, expiresAt, none⟩

/-- `refreshSession.findUnique`; `auth.repository.ts:76–85`. -/
def findRefreshSession (tokenHash : String) : Query (Option RefreshSession) where
  result _ db := some (db.refreshSessions.find? tokenHash)

/-- The user that `findUnique` selects with the session; `auth.repository.ts:81–83`. -/
def findUser (id : String) : Query (Option User) where
  result _ db := some (db.users.find? id)

/-- The session with the hash, if it meets the condition. -/
def matching (condition : RefreshSession → Bool) (tokenHash : String) (db : Database) :
    Option RefreshSession :=
  (db.refreshSessions.find? tokenHash).filter condition

/-- `refreshSession.updateMany` with `revokedAt` as data: the update waits for the row, evaluates
its condition on the row as it is then, and returns the number of rows. -/
def revokeMany (condition : RefreshSession → Bool) (tokenHash : String) (revokedAt : Date) :
    Query Nat where
  locks _ db := if (matching condition tokenHash db).isSome then [.session tokenHash] else []
  result _ db := some (if (matching condition tokenHash db).isSome then 1 else 0)
  write _ view db :=
    if (matching condition tokenHash view).isSome then db.revoke tokenHash revokedAt else db

end Sql

/-! ### The repository -/

/-- `createRefreshSession`; `auth.repository.ts:58–64`. -/
def createRefreshSession (userId tokenHash : String) (expiresAt : Date) : Process Unit :=
  Tx.transaction (Tx.query (Sql.createRefreshSession userId tokenHash expiresAt))

/-- The input of `rotateRefreshSession`; `auth.repository.ts:66–71`. -/
structure RotateInput where
  currentTokenHash : String
  nextTokenHash : String
  nextExpiresAt : Date
  now : Date

/-- The sessions that a rotation may still revoke; `auth.repository.ts:98–102`. -/
def unexpired (now : Date) (session : RefreshSession) : Bool :=
  session.revokedAt.isNone && decide (now < session.expiresAt)

/-- The callback of `$transaction` in `rotateRefreshSession`; `auth.repository.ts:75–119`. -/
def rotateInTransaction (input : RotateInput) : Process (Option User) := do
  match ← Tx.query (Sql.findRefreshSession input.currentTokenHash) with
  | none => return none
  | some session =>
    match ← Tx.query (Sql.findUser session.userId) with
    | none => Tx.throw
    | some user =>
      if session.revokedAt.isSome ∨ session.expiresAt ≤ input.now ∨ user.status ≠ .ACTIVE ∨
          user.deletedAt.isSome then
        return none
      else
        let count ← Tx.query
          (Sql.revokeMany (unexpired input.now) input.currentTokenHash input.now)
        if count ≠ 1 then return none
        else
          Tx.query (Sql.createRefreshSession user.id input.nextTokenHash input.nextExpiresAt)
          return some user

/-- `rotateRefreshSession`; `auth.repository.ts:66–120`. -/
def rotateRefreshSession (input : RotateInput) : Process (Option User) :=
  Tx.transaction (rotateInTransaction input)

/-- `revokeRefreshSession`; `auth.repository.ts:122–127`. -/
def revokeRefreshSession (tokenHash : String) (now : Date) : Process Nat :=
  Tx.transaction
    (Tx.query (Sql.revokeMany (fun session ↦ session.revokedAt.isNone) tokenHash now))

end Banking.Auth
