import Banking.Refinement.Emails

/-!
# Who gets tokens

What the calls of the authentication service promise about the users and sessions they add and the
pairs they return, whatever other calls commit between their statements: a registration adds a
customer under a new email, a login has checked a password of the user it signs for, and a refresh
signs for the user of the session it exchanges.
-/

namespace Banking.Auth

open Js (Date)
open Relational (Promises Table Tx)

/-- The password of the user with this email was presented. -/
structure Verified (d : Deployment) (email password : String) (user : User) : Prop where
  email : user.email = email
  password : d.verify password user.passwordHash = some true

/-- What a commit adds: a registration adds an active customer under an email that nobody has, a
login adds a session of the user whose password it has checked, and no other call adds a session of
a user who has none. -/
def Adds (d : Deployment) (call : Call) (b a : Database) : Prop :=
  match call with
  | .createUser email passwordHash => ∃ id, b.users.find? id = none ∧
    (∀ user ∈ b.users.rows, user.email ≠ email) ∧
    a = b.addUser ⟨id, email, passwordHash, .CUSTOMER, .ACTIVE, none⟩
  | .login email password => ∃ user tokenHash expiresAt, Verified d email password user ∧
    b.users.find? user.id = some user ∧ b.refreshSessions.find? tokenHash = none ∧
    a = b.addSession ⟨tokenHash, user.id, expiresAt, none⟩
  | _ => True

/-- The access token is signed for the user, who may use the service, in the role of the row. -/
structure Signed (d : Deployment) (db : Database) (user : User) (accessToken : String) : Prop where
  found : db.users.find? user.id = some user
  active : user.status = .ACTIVE
  present : user.deletedAt = none
  signed : ∃ jti iat, d.sign user.id user.role jti iat = some accessToken

/-- How a call that returns a pair may end. -/
def Grants (d : Deployment) : Call → Database → List Database → List (Database × Database) →
    Relational.Outcome Reply → Prop
  | .login email password, _, seen, hist, .returned (.tokens pair) =>
    ∃ b ∈ seen, ∃ user, Signed d b user pair.accessToken ∧ Verified d email password user ∧
      ∃ c a expiresAt, hist = [(c, a)] ∧
        c.refreshSessions.find? (d.hashRefreshToken pair.refreshToken) = none ∧
        a = c.addSession ⟨d.hashRefreshToken pair.refreshToken, user.id, expiresAt, none⟩
  | .refresh token, _, seen, _, .returned (.tokens pair) =>
    ∃ b ∈ seen, ∃ user, Signed d b user pair.accessToken ∧
      ∃ session, b.refreshSessions.find? (d.hashRefreshToken token) = some session ∧
        session.userId = user.id
  | .createUser _ _, _, _, _, .returned (.tokens _) => False
  | .logout _, _, _, _, .returned (.tokens _) => False
  | _, _, _, _, _ => True

variable {d : Deployment} {own : Lock → Prop} {seen : List Database}
  {hist : List (Database × Database)} {db born : Database}

/-- A user is created under an unused email. -/
private theorem createUser_email {email passwordHash : String} {env : Relational.Env Supply}
    {view : Database} {x : Unit}
    (h : (Sql.createUser email passwordHash).result env view = some x) :
    ∀ user ∈ view.users.rows, user.email ≠ email := by
  simp only [Sql.createUser] at h
  split at h
  · next hnew =>
    simp only [Bool.and_eq_true, List.all_eq_true, decide_eq_true_eq] at hnew
    exact hnew.1
  · cases h

/-- Signing the access token commits nothing. -/
private theorem promises_tokenPair {call : Call} {Effect : Database → Database → Prop}
    {userId refreshToken : String} {role : UserRole}
    (hthrow : ∀ seen, Grants d call born seen hist .threw)
    (h : ∀ accessToken jti iat db', d.sign userId role jti iat = some accessToken →
      Grants d call born (seen ++ [db']) hist (.returned (.tokens ⟨accessToken, refreshToken,
        "Bearer", d.ACCESS_TOKEN_TTL_SECONDS, d.REFRESH_TOKEN_TTL_SECONDS⟩))) :
    Promises (LockedCommits d) Effect (Grants d call born)
      (do
        let pair ← tokenPair d userId role refreshToken
        return .tokens pair : Process Reply) own id seen hist db := by
  rw [tokenPair, Tx.bind_assoc]
  exact Promises.query_bind (fun env db' _ accessToken hr ↦ h accessToken _ _ db' hr)
    (fun _ _ _ _ ↦ hthrow _)

private theorem promises_login {email password : String} :
    Promises (LockedCommits d) (Adds d (.login email password))
      (Grants d (.login email password) born)
      (do
        let pair ← login d email password
        return .tokens pair : Process Reply) (fun _ ↦ False) id [born] [] born := by
  rw [login, Tx.bind_assoc]
  refine Promises.read_bind (Sql.findUserByEmail_reads email) fun env₁ db₁ _ found hr₁ ↦ ?_
  split
  · next user hverify =>
    have hfound : db₁.users.rows.find? (fun user ↦ user.email = email) = some user :=
      Option.some.inj hr₁
    have huser : db₁.users.find? user.id = some user :=
      Table.find?_of_mem (List.mem_of_find?_eq_some hfound)
    have hverified : Verified d email password user :=
      ⟨by simpa using List.find?_some hfound, hverify⟩
    split
    · exact trivial
    · next husable =>
      simp only [not_or, not_not, Bool.not_eq_true, Option.isSome_eq_false_iff,
        Option.isNone_iff_eq_none] at husable
      simp only [issueTokenPair, Tx.bind_assoc]
      refine Promises.read_bind createRefreshToken_reads fun _ db₂ he₂ refreshToken _ ↦ ?_
      refine Promises.read_bind Sql.now_reads fun _ db₃ he₃ issuedAt _ ↦ ?_
      rw [createRefreshSession, Tx.transaction_bind]
      refine Promises.query_bind (fun env₄ db₄ he₄ _ hr₄ ↦ ?_) (fun _ _ _ _ ↦ trivial)
      intro db₅ he₅
      have hfresh := (evolves_of_locked he₅).fresh (Sql.createRefreshSession_result hr₄)
        (fun hn ↦ hn (.inr (List.mem_singleton_self _)))
      have huser₄ := (evolves_of_locked he₄).user ((evolves_of_locked he₃).user
        ((evolves_of_locked he₂).user huser))
      have huser₅ := (evolves_of_locked he₅).user huser₄
      refine ⟨⟨user, _, _, hverified, huser₅, hfresh, rfl⟩, ?_⟩
      refine promises_tokenPair (fun _ ↦ trivial) fun accessToken jti iat db' hsigned ↦ ?_
      exact ⟨db₅, by simp, user, ⟨huser₅, husable.1, husable.2, jti, iat, hsigned⟩, hverified,
        db₅, _, _, rfl, hfresh, rfl⟩
  · exact trivial

private theorem promises_refresh {token : String} :
    Promises (LockedCommits d) (Adds d (.refresh token)) (Grants d (.refresh token) born)
      (do
        let pair ← refresh d token
        return .tokens pair : Process Reply) (fun _ ↦ False) id [born] [] born := by
  -- a rotation that revokes nothing makes the call throw
  have hnothing : ∀ own pending seen db, Promises (LockedCommits d) (Adds d (.refresh token))
      (Grants d (.refresh token) born) (.commit .throw : Process Reply) own pending seen [] db :=
    fun _ _ _ _ _ _ ↦ ⟨trivial, trivial⟩
  simp only [refresh, Tx.bind_assoc]
  refine Promises.read_bind createRefreshToken_reads fun _ db₁ _ nextToken _ ↦ ?_
  refine Promises.read_bind Sql.now_reads fun _ db₂ _ now _ ↦ ?_
  rw [rotateRefreshSession, Tx.transaction_bind, rotateInTransaction, Tx.bind_assoc]
  refine Promises.read_bind (Sql.findRefreshSession_reads _) fun _ db₃ _ found hr₃ ↦ ?_
  cases found with
  | none => exact hnothing _ _ _ _
  | some session =>
    have hsession : db₃.refreshSessions.find? (d.hashRefreshToken token) = some session :=
      Option.some.inj hr₃
    dsimp only
    rw [Tx.bind_assoc]
    refine Promises.read_bind (Sql.findUser_reads _) fun _ db₄ he₄ owner hr₄ ↦ ?_
    cases owner with
    | none => exact trivial
    | some user =>
      have huser : db₄.users.find? session.userId = some user := Option.some.inj hr₄
      obtain ⟨revokedAt, hsession₄⟩ := (evolves_of_locked he₄).session hsession
      have hid : session.userId = user.id := (Table.key_of_find? huser).symm
      dsimp only
      split
      · exact hnothing _ _ _ _
      · next husable =>
        simp only [not_or, not_not, Bool.not_eq_true, Option.isSome_eq_false_iff,
          Option.isNone_iff_eq_none] at husable
        obtain ⟨-, -, hactive, hpresent⟩ := husable
        rw [Tx.bind_assoc]
        refine Promises.query_bind (fun _ db₅ _ count _ ↦ ?_) (fun _ _ _ _ ↦ trivial)
        split
        · exact hnothing _ _ _ _
        · rw [Tx.bind_assoc]
          refine Promises.query_bind (fun _ db₆ _ _ _ ↦ ?_) (fun _ _ _ _ ↦ trivial)
          refine fun db₇ _ ↦ ⟨trivial, ?_⟩
          have hallowed : ¬ (user.status ≠ .ACTIVE ∨ user.deletedAt.isSome = true) := by
            simp [hactive, hpresent]
          dsimp only
          rw [if_neg hallowed]
          refine promises_tokenPair (fun _ ↦ trivial) fun accessToken jti iat db' hsigned ↦ ?_
          exact ⟨db₄, by simp, user, ⟨hid ▸ huser, hactive, hpresent, jti, iat, hsigned⟩, _,
            hsession₄, hid⟩

/-- Every call keeps its promises about tokens. -/
theorem promises_begins {call : Call} {program : Process Reply}
    (hb : begins d call db = some program) :
    Promises (LockedCommits d) (Adds d call) (Grants d call db) program (fun _ ↦ False) id [db] []
      db := by
  cases call with
  | createUser email passwordHash =>
    cases hb
    rw [Tx.transaction_bind]
    refine Promises.query_bind (fun env₁ db₁ _ _ hr₁ ↦ ?_) (fun _ _ _ _ ↦ trivial)
    refine Promises.commit_pure fun db₂ he₂ ↦ ⟨?_, trivial⟩
    have hemail : Lock.email email ∈ (Sql.createUser email passwordHash).locks env₁ db₁ :=
      List.mem_cons_self
    have hid : Lock.userPk env₁.supply.id ∈ (Sql.createUser email passwordHash).locks env₁ db₁ :=
      List.mem_cons_of_mem _ List.mem_cons_self
    exact ⟨env₁.supply.id,
      (evolves_of_locked he₂).userFresh (Sql.createUser_result hr₁) (fun hn ↦ hn (.inr hid)),
      email_new he₂ (fun hn ↦ hn (.inr hemail)) (createUser_email hr₁), rfl⟩
  | login email password =>
    cases hb
    exact promises_login
  | refresh token =>
    cases hb
    exact promises_refresh
  | logout token =>
    cases hb
    simp only [logout, Tx.bind_assoc]
    refine Promises.read_bind Sql.now_reads fun _ _ _ now _ ↦ ?_
    rw [revokeRefreshSession, Tx.transaction_bind]
    exact Promises.query_bind (fun _ _ _ _ _ _ _ ↦ ⟨trivial, trivial⟩) (fun _ _ _ _ ↦ trivial)

end Banking.Auth
