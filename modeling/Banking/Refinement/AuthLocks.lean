import Banking.Refinement.Auth
import Banking.Relational.Deadlock

/-!
# The order of the locks of the authentication service

A rotation locks the session that it revokes before it inserts the successor under a new hash; the
other calls take the locks of one statement. So all calls take their locks in one order, and no
lock is ever taken late.
-/

namespace Banking.Auth

open Relational (Ordered Table Tx)

/-- The place of a lock in the order. -/
def Lock.rank : Lock → Nat
  | .session _ => 0
  | .tokenHash _ => 1
  | .email _ => 2
  | .userPk _ => 3

/-- The process takes its locks in order; nothing need be known of who has a lock. -/
abbrev InOrder (d : Deployment) : Process Reply → (Lock → Prop) → (Database → Database) → Int →
    Database → Prop :=
  Ordered (Commits d) Lock.rank fun _ _ _ ↦ True

variable {d : Deployment} {own : Lock → Prop} {pending : Database → Database} {now : Int}
variable {db : Database}

/-! ### The statements -/

namespace Sql

/-- The unique entries of a user. -/
theorem createUser_rises (email passwordHash : String) :
    (createUser email passwordHash).Rises Lock.rank 2 4 := by
  intro env db
  simp [createUser, Lock.rank]

/-- The unique entry of a session. -/
theorem createRefreshSession_rises (userId tokenHash : String) (expiresAt : Js.Date) :
    (createRefreshSession userId tokenHash expiresAt).Rises Lock.rank 1 2 := by
  intro env db
  simp [createRefreshSession, Lock.rank]

/-- The lock of a session. -/
theorem revokeMany_rises (condition : RefreshSession → Bool) (tokenHash : String)
    (revokedAt : Js.Date) :
    (revokeMany condition tokenHash revokedAt).Rises Lock.rank 0 1 := by
  intro env db
  simp only [revokeMany]
  split <;> simp [Lock.rank]

end Sql

/-! ### The calls -/

/-- A statement whose locks are above all that the process owns. -/
private theorem inOrder_rises {β : Type} {s : Query β} {lo hi : Nat} (hs : s.Rises Lock.rank lo hi)
    {f : β → Process Reply} (hown : ∀ o, own o → o.rank < lo) (hle : lo ≤ hi)
    (h : ∀ own' pending' now' db', (∀ o, own' o → o.rank < hi) →
      ∀ b, InOrder d (f b) own' pending' now' db') :
    InOrder d (Tx.query s >>= f) own pending now db :=
  Ordered.rises_bind hs hown hle (fun _ _ _ _ _ _ ↦ trivial)
    fun _ _ _ _ hown' b _ ↦ h _ _ _ _ hown' b

/-- Signing the access token takes no lock. -/
private theorem inOrder_tokenPair {userId refreshToken : String} {role : UserRole} :
    InOrder d
      (do
        let pair ← tokenPair d userId role refreshToken
        return .tokens pair) own pending now db := by
  rw [tokenPair, Tx.bind_assoc]
  exact Ordered.query_bind (fun _ _ _ _ ↦ Relational.Asks.nil) fun _ _ _ _ _ _ ↦ trivial

/-- A registration takes its locks in order. -/
theorem inOrder_createUser {email passwordHash : String} :
    InOrder d
      (do
        Tx.transaction (Tx.query (Sql.createUser email passwordHash))
        return .done) (fun _ ↦ False) id now db := by
  rw [Tx.transaction_bind]
  exact inOrder_rises (Sql.createUser_rises _ _) (by simp) (by decide)
    fun _ _ _ _ _ _ _ _ _ _ ↦ trivial

/-- A login takes its locks in order. -/
theorem inOrder_login {email password : String} :
    InOrder d
      (do
        let pair ← login d email password
        return .tokens pair) (fun _ ↦ False) id now db := by
  rw [login, Tx.bind_assoc]
  refine Ordered.read_bind (Sql.findUserByEmail_reads email) fun _ _ _ _ found _ ↦ ?_
  split
  · split
    · exact trivial
    · simp only [issueTokenPair, Tx.bind_assoc]
      refine Ordered.read_bind createRefreshToken_reads fun _ _ _ _ refreshToken _ ↦ ?_
      refine Ordered.read_bind Sql.now_reads fun _ _ _ _ issuedAt _ ↦ ?_
      rw [createRefreshSession, Tx.transaction_bind]
      refine inOrder_rises (Sql.createRefreshSession_rises _ _ _) (by simp) (by decide)
        fun _ _ _ _ _ _ ↦ ?_
      exact fun _ _ _ _ ↦ inOrder_tokenPair
  · exact trivial

/-- A refresh locks the session that it revokes before the hash of its successor. -/
theorem inOrder_refresh {token : String} :
    InOrder d
      (do
        let pair ← refresh d token
        return .tokens pair) (fun _ ↦ False) id now db := by
  -- a rotation that revokes nothing makes the call throw
  have hnothing : ∀ own pending now db, InOrder d (.commit .throw) own pending now db :=
    fun _ _ _ _ _ _ _ _ ↦ trivial
  simp only [refresh, Tx.bind_assoc]
  refine Ordered.read_bind createRefreshToken_reads fun _ _ _ _ nextToken _ ↦ ?_
  refine Ordered.read_bind Sql.now_reads fun _ _ _ _ t _ ↦ ?_
  rw [rotateRefreshSession, Tx.transaction_bind, rotateInTransaction, Tx.bind_assoc]
  refine Ordered.read_bind (Sql.findRefreshSession_reads _) fun _ _ _ _ found _ ↦ ?_
  cases found with
  | none => exact hnothing _ _ _ _
  | some session =>
    dsimp only
    rw [Tx.bind_assoc]
    refine Ordered.read_bind (Sql.findUser_reads _) fun _ _ _ _ owner _ ↦ ?_
    cases owner with
    | none => exact trivial
    | some user =>
      dsimp only
      split
      · exact hnothing _ _ _ _
      · rw [Tx.bind_assoc]
        refine inOrder_rises (Sql.revokeMany_rises _ _ _) (by simp) (by decide)
          fun _ _ _ _ hown count ↦ ?_
        split
        · exact hnothing _ _ _ _
        · rw [Tx.bind_assoc]
          refine inOrder_rises (Sql.createRefreshSession_rises _ _ _) hown (by decide)
            fun _ _ _ _ _ _ ↦ ?_
          intro now' db' _ _
          dsimp only
          split
          · exact trivial
          · exact inOrder_tokenPair

/-- A logout takes its locks in order. -/
theorem inOrder_logout {token : String} :
    InOrder d
      (do
        logout d token
        return .done) (fun _ ↦ False) id now db := by
  simp only [logout, Tx.bind_assoc]
  refine Ordered.read_bind Sql.now_reads fun _ _ _ _ t _ ↦ ?_
  rw [revokeRefreshSession, Tx.transaction_bind]
  exact inOrder_rises (Sql.revokeMany_rises _ _ _) (by simp) (by decide)
    fun _ _ _ _ _ _ _ _ _ _ ↦ trivial

/-! ### The system -/

/-- Every call takes its locks in order. -/
theorem inOrder_begins (call : Call) (db : Database) (program : Process Reply) (now : Int)
    (hb : begins d call db = some program) :
    InOrder d program (fun _ ↦ False) id now db := by
  cases call with
  | createUser email passwordHash =>
    cases hb
    exact inOrder_createUser
  | login email password =>
    cases hb
    exact inOrder_login
  | refresh token =>
    cases hb
    exact inOrder_refresh
  | logout token =>
    cases hb
    exact inOrder_logout

/-- In every reachable state the processes take their locks in order. -/
theorem orderly {users : Table User.id} {s : SystemState} (h : Runs d (initial users now) s) :
    Relational.Orderly (Commits d) Lock.rank (fun _ _ _ ↦ True) s :=
  (Relational.Orderly.initial now).runs (commits_mono d) (fun _ _ _ _ _ _ ↦ trivial)
    (fun _ _ _ _ _ _ ↦ trivial)
    (fun call db program now _ hb ↦ safe_begins call db program now hb)
    (fun call db program now _ ↦ inOrder_begins call db program now)
    (Relational.Sound.initial now) h

/-- In no reachable state do calls wait for one another in a circle. -/
theorem waits_acyclic {users : Table User.id} {s : SystemState} (h : Runs d (initial users now) s)
    (w : Relational.Waits s) (i : Nat) : ¬ Relation.TransGen w.For i i :=
  w.acyclic (fun _ _ _ _ _ _ ↦ trivial) (orderly h) i

end Banking.Auth
