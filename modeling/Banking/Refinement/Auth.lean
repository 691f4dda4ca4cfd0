import Banking.Auth.Commits
import Banking.Relational.Stamps

/-!
# The authentication service refines its commits

Every reachable committed database is reached by steps of `Commits` alone, and a refresh that
returns has committed one exchange of its session.
-/

namespace Banking.Auth

open Js (Date)
open Relational (Outcome Safe Table Tx)

variable {d : Deployment} {own : Lock → Prop} {hist : List (Database × Database)} {now : Int}
  {db born : Database}

/-- The single commit of a refresh that returned is the exchange of its session for that of the
returned token. -/
def RefreshEnds (d : Deployment) (token : String) (outcome : Outcome Reply)
    (hist : List (Database × Database)) : Prop :=
  ∀ reply, outcome = .returned reply → ∃ pair b a session user now nextExpiresAt,
    reply = .tokens pair ∧ hist = [(b, a)] ∧
      Exchanged b a (d.hashRefreshToken token) (d.hashRefreshToken pair.refreshToken) session user
        now nextExpiresAt

/-- How a call may end. -/
def Ends (d : Deployment) : Call → Database → Outcome Reply → List (Database × Database) → Prop
  | .refresh token, _ => RefreshEnds d token
  | _, _ => fun _ _ ↦ True

/-! ### Statements -/

namespace Sql

/-- Reading the clock changes nothing. -/
theorem now_reads : Sql.now.Reads := ⟨fun _ _ ↦ rfl, fun _ _ ↦ rfl, fun _ _ ↦ rfl⟩

/-- Looking up a user by email changes nothing. -/
theorem findUserByEmail_reads (email : String) : (findUserByEmail email).Reads :=
  ⟨fun _ _ ↦ rfl, fun _ _ ↦ rfl, fun _ _ ↦ rfl⟩

/-- Looking up a session changes nothing. -/
theorem findRefreshSession_reads (tokenHash : String) : (findRefreshSession tokenHash).Reads :=
  ⟨fun _ _ ↦ rfl, fun _ _ ↦ rfl, fun _ _ ↦ rfl⟩

/-- Looking up a user changes nothing. -/
theorem findUser_reads (id : String) : (findUser id).Reads :=
  ⟨fun _ _ ↦ rfl, fun _ _ ↦ rfl, fun _ _ ↦ rfl⟩

/-- A user is created under an unused identifier. -/
theorem createUser_result {env : Relational.Env Supply} {email passwordHash : String} {u : Unit}
    (h : (createUser email passwordHash).result env db = some u) :
    db.users.find? env.supply.id = none := by
  simp only [createUser] at h
  split at h
  · next hc =>
    simp only [Bool.and_eq_true, Option.isNone_iff_eq_none] at hc
    exact hc.2
  · cases h

/-- A session is created under an unused hash. -/
theorem createRefreshSession_result {env : Relational.Env Supply} {userId tokenHash : String}
    {expiresAt : Date} {u : Unit}
    (h : (createRefreshSession userId tokenHash expiresAt).result env db = some u) :
    db.refreshSessions.find? tokenHash = none := by
  simp only [createRefreshSession] at h
  split at h
  · next hc =>
    simp only [Bool.and_eq_true, Option.isNone_iff_eq_none] at hc
    exact hc.1
  · cases h

end Sql

/-- Drawing a token changes nothing. -/
theorem createRefreshToken_reads : createRefreshToken.Reads :=
  ⟨fun _ _ ↦ rfl, fun _ _ ↦ rfl, fun _ _ ↦ rfl⟩

/-! ### The calls -/

/-- A guarded revocation finds no session that meets its condition and changes nothing, or revokes
one and keeps its lock. -/
private theorem safe_revokeMany {call : Call}
    {Post : Outcome Reply → List (Database × Database) → Prop} {f : Nat → Process Reply}
    {condition : RefreshSession → Bool} {k : String} {revokedAt : Date}
    (hnone : ∀ now' db', Safe (Commits d) call Post (f 0) own id hist now' db')
    (hsome : ∀ now' db' session, Evolves d (fun l ↦ ¬ own l) db db' →
      db'.refreshSessions.find? k = some session → condition session = true →
      Safe (Commits d) call Post (f 1) (fun l ↦ own l ∨ l ∈ [.session k])
        (fun db ↦ db.revoke k revokedAt) hist now' db') :
    Safe (Commits d) call Post (Tx.query (Sql.revokeMany condition k revokedAt) >>= f) own id hist
      now db := by
  refine Safe.query_bind (fun now₁ db₁ supply₁ _ he₁ count hr₁ ↦ ?_)
    (fun _ _ _ _ _ hr ↦ nomatch hr)
  cases hm : Sql.matching condition k db₁ with
  | none =>
    simp only [Sql.revokeMany, id, hm, Option.isSome_none, Bool.false_eq_true, if_false,
      Option.some.injEq] at hr₁ ⊢
    simp only [List.not_mem_nil, or_false, ← hr₁]
    exact hnone now₁ db₁
  | some session =>
    obtain ⟨hfound, hcondition⟩ := Option.filter_eq_some_iff.mp hm
    simp only [Sql.revokeMany, id, hm, Option.isSome_some, if_true, Option.some.injEq] at hr₁ ⊢
    simp only [← hr₁]
    exact hsome now₁ db₁ session he₁ hfound hcondition

/-- Signing the access token commits nothing. -/
private theorem safe_tokenPair {call : Call}
    {Post : Outcome Reply → List (Database × Database) → Prop} {userId refreshToken : String}
    {role : UserRole} (hthrow : Post .threw hist)
    (h : ∀ accessToken, Post (.returned (.tokens ⟨accessToken, refreshToken, "Bearer",
      d.ACCESS_TOKEN_TTL_SECONDS, d.REFRESH_TOKEN_TTL_SECONDS⟩)) hist) :
    Safe (Commits d) call Post
      (do
        let pair ← tokenPair d userId role refreshToken
        return .tokens pair : Process Reply) own id hist now db := by
  rw [tokenPair, Tx.bind_assoc]
  exact Safe.query_bind (fun _ _ _ _ _ accessToken _ ↦ h accessToken) (fun _ _ _ _ _ _ ↦ hthrow)

private theorem safe_createUser {email passwordHash : String} :
    Safe (Commits d) (.createUser email passwordHash) (fun _ _ ↦ True)
      (do
        Tx.transaction (Tx.query (Sql.createUser email passwordHash))
        return .done : Process Reply) (fun _ ↦ False) id [] now db := by
  rw [Tx.transaction_bind]
  refine Safe.query_bind (fun now₁ db₁ supply₁ _ he₁ _ hr₁ ↦ ?_) (fun _ _ _ _ _ _ ↦ trivial)
  refine Safe.commit_pure fun db₂ he₂ ↦ ⟨.single ?_, trivial⟩
  have hlock : Lock.userPk supply₁.id ∈
      (Sql.createUser email passwordHash).locks ⟨now₁, supply₁⟩ db₁ := by
    simp [Sql.createUser]
  exact .createUser (Evolves.userFresh he₂ (Sql.createUser_result hr₁) fun hn ↦ hn (.inr hlock))
    (.inr hlock)

private theorem safe_login {email password : String} :
    Safe (Commits d) (.login email password) (fun _ _ ↦ True)
      (do
        let pair ← login d email password
        return .tokens pair : Process Reply) (fun _ ↦ False) id [] now db := by
  rw [login, Tx.bind_assoc]
  refine Safe.read_bind (Sql.findUserByEmail_reads email) fun now₁ db₁ _ _ _ found hr₁ ↦ ?_
  split
  · next user hverify =>
    have huser : db₁.users.find? user.id = some user :=
      Table.find?_of_mem (List.mem_of_find?_eq_some (Option.some.inj hr₁))
    split
    · exact trivial
    · next husable =>
      simp only [not_or, not_not, Bool.not_eq_true, Option.isSome_eq_false_iff,
        Option.isNone_iff_eq_none] at husable
      simp only [issueTokenPair, Tx.bind_assoc]
      refine Safe.read_bind createRefreshToken_reads fun now₂ db₂ _ _ he₂ refreshToken _ ↦ ?_
      refine Safe.read_bind Sql.now_reads fun now₃ db₃ _ _ he₃ issuedAt _ ↦ ?_
      rw [createRefreshSession, Tx.transaction_bind]
      refine Safe.query_bind (fun now₄ db₄ supply₄ _ he₄ _ hr₄ ↦ ?_) (fun _ _ _ _ _ _ ↦ trivial)
      intro now₅ db₅ _ he₅
      have hfresh := Evolves.fresh he₅ (Sql.createRefreshSession_result hr₄)
        (fun hn ↦ hn (.inr (List.mem_singleton_self _)))
      have huser₅ := Evolves.user he₅ (Evolves.user he₄ (Evolves.user he₃ (Evolves.user he₂ huser)))
      refine ⟨.single (.login huser₅ husable.1 husable.2 hfresh
        (.inr (List.mem_singleton_self _))), ?_⟩
      exact safe_tokenPair trivial fun _ ↦ trivial
  · exact trivial

/-- The guarded update finds the session unrevoked and unexpired, and its lock keeps it so. -/
private theorem safe_refresh {token : String} :
    Safe (Commits d) (.refresh token) (RefreshEnds d token)
      (do
        let pair ← refresh d token
        return .tokens pair : Process Reply) (fun _ ↦ False) id [] now db := by
  have hthrow : ∀ hist, RefreshEnds d token .threw hist := fun _ _ h ↦ nomatch h
  -- a rotation that revokes nothing makes the call throw
  have hnothing : ∀ own now db, Safe (Commits d) (.refresh token) (RefreshEnds d token)
      (.commit .throw : Process Reply) own id [] now db :=
    fun _ _ _ _ _ _ _ ↦ ⟨.refl, hthrow _⟩
  simp only [refresh, Tx.bind_assoc]
  refine Safe.read_bind createRefreshToken_reads fun now₁ db₁ _ _ _ nextToken _ ↦ ?_
  refine Safe.read_bind Sql.now_reads fun now₂ db₂ _ _ _ t _ ↦ ?_
  rw [rotateRefreshSession, Tx.transaction_bind, rotateInTransaction, Tx.bind_assoc]
  refine Safe.read_bind (Sql.findRefreshSession_reads _) fun now₃ db₃ _ _ he₃ found hr₃ ↦ ?_
  cases found with
  | none => exact hnothing _ _ _
  | some session₃ =>
    have hsession₃ : db₃.refreshSessions.find? (d.hashRefreshToken token) = some session₃ :=
      Option.some.inj hr₃
    dsimp only
    rw [Tx.bind_assoc]
    refine Safe.read_bind (Sql.findUser_reads _) fun now₄ db₄ _ _ he₄ owner hr₄ ↦ ?_
    cases owner with
    | none => exact hthrow _
    | some user =>
      have huser₄ : db₄.users.find? session₃.userId = some user := Option.some.inj hr₄
      dsimp only
      split
      · exact hnothing _ _ _
      · next husable =>
        simp only [not_or, not_not, Bool.not_eq_true, Option.isSome_eq_false_iff,
          Option.isNone_iff_eq_none] at husable
        obtain ⟨-, -, hactive, hpresent⟩ := husable
        rw [Tx.bind_assoc]
        refine safe_revokeMany (fun _ _ ↦ hnothing _ _ _)
          fun now₅ db₅ session₅ he₅ hsession₅ hunexpired ↦ ?_
        simp only [unexpired, Bool.and_eq_true, Option.isNone_iff_eq_none, decide_eq_true_eq]
          at hunexpired
        rw [if_neg (not_not.mpr rfl), Tx.bind_assoc]
        refine Safe.query_bind (fun now₆ db₆ supply₆ _ he₆ _ hr₆ ↦ ?_)
          (fun _ _ _ _ _ _ ↦ hthrow _)
        intro now₇ db₇ _ he₇
        have hlock : Lock.session (d.hashRefreshToken token) ∈
            [Lock.session (d.hashRefreshToken token)] := List.mem_singleton_self _
        have hnext : Lock.tokenHash (d.hashRefreshToken nextToken) ∈
            (Sql.createRefreshSession user.id (d.hashRefreshToken nextToken)
              (t + d.REFRESH_TOKEN_TTL_SECONDS * 1000)).locks ⟨now₆, supply₆⟩
              (db₆.revoke (d.hashRefreshToken token) t) := List.mem_singleton_self _
        have hsession₆ := Evolves.session_locked he₆ hsession₅ fun hn ↦ hn (.inr hlock)
        have hsession₇ := Evolves.session_locked he₇ hsession₆ fun hn ↦ hn (.inl (.inr hlock))
        have hfresh := Evolves.fresh he₇
          (find?_revoke_eq_none.mp (Sql.createRefreshSession_result hr₆)) fun hn ↦ hn (.inr hnext)
        have huser := Evolves.user he₇ (Evolves.user he₆ (Evolves.user he₅ huser₄))
        -- the session that the update finds is the one that was read, so it has the same user
        have hsame : session₅.userId = session₃.userId := by
          obtain ⟨revokedAt, hread⟩ := Evolves.session he₄ hsession₃
          obtain ⟨revokedAt', hfound⟩ := Evolves.session he₅ hread
          rw [Option.some.inj (hsession₅.symm.trans hfound)]
        have hexchanged : Exchanged db₇ _ (d.hashRefreshToken token)
            (d.hashRefreshToken nextToken) session₅ user t
            (t + d.REFRESH_TOKEN_TTL_SECONDS * 1000) :=
          ⟨hsession₇, hunexpired.1, hunexpired.2, hsame ▸ huser, hactive, hpresent, hfresh, rfl⟩
        refine ⟨.single (.refresh hexchanged (.inl (.inr hlock)) (.inr hnext)), ?_⟩
        have hallowed : ¬ (user.status ≠ .ACTIVE ∨ user.deletedAt.isSome = true) := by
          simp [hactive, hpresent]
        dsimp only
        rw [if_neg hallowed]
        refine safe_tokenPair (hthrow _) fun accessToken reply hreply ↦ ?_
        cases hreply
        exact ⟨_, _, _, _, _, _, _, rfl, rfl, hexchanged⟩

private theorem safe_logout {token : String} :
    Safe (Commits d) (.logout token) (fun _ _ ↦ True)
      (do
        logout d token
        return .done : Process Reply) (fun _ ↦ False) id [] now db := by
  simp only [logout, Tx.bind_assoc]
  refine Safe.read_bind Sql.now_reads fun now₁ db₁ _ _ _ t _ ↦ ?_
  rw [revokeRefreshSession, Tx.transaction_bind]
  refine safe_revokeMany (fun _ _ ↦ Safe.commit_unchanged fun _ _ ↦ trivial)
    fun now₂ db₂ session he₂ hsession hunrevoked ↦ ?_
  refine Safe.commit_pure fun db₃ he₃ ↦ ⟨.single ?_, trivial⟩
  have hlock : Lock.session (d.hashRefreshToken token) ∈
      [Lock.session (d.hashRefreshToken token)] := List.mem_singleton_self _
  exact .logout (Evolves.session_locked he₃ hsession fun hn ↦ hn (.inr hlock))
    (Option.isNone_iff_eq_none.mp hunrevoked) (.inr hlock)

/-! ### The system -/

/-- Every call is safe from where it starts. -/
theorem safe_begins (call : Call) (db : Database) (program : Process Reply) (now : Int)
    (hb : begins d call db = some program) :
    Safe (Commits d) call (Ends d call db) program (fun _ ↦ False) id [] now db := by
  cases call with
  | createUser email passwordHash =>
    cases hb
    exact safe_createUser
  | login email password =>
    cases hb
    exact safe_login
  | refresh token =>
    cases hb
    exact safe_refresh
  | logout token =>
    cases hb
    exact safe_logout

/-- What holds of a state reached from a table of users. -/
abbrev Sound (d : Deployment) (users : Table User.id) : SystemState → Prop :=
  Relational.Sound (begins d) (Commits d) (Ends d) ⟨users, .empty⟩

variable {users : Table User.id} {s s' : SystemState}

/-- Every reachable state is sound. -/
theorem sound (h : Runs d (initial users now) s) : Sound d users s :=
  (Relational.Sound.initial now).runs (commits_mono d)
    (fun call db program now _ hb ↦ safe_begins call db program now hb) h

/-- Along a run from a reachable state the database evolves. -/
theorem evolves (h : Runs d (initial users now) s) (hs : Runs d s s') :
    Evolves d (fun _ ↦ True) s.db s'.db :=
  (sound h).evolves (commits_mono d)
    (fun call db program now _ hb ↦ safe_begins call db program now hb) hs

/-- What was revoked between the databases was revoked at a good time. -/
def RevokesAt (ok : Date → Prop) (b a : Database) : Prop :=
  ∀ h session t, a.refreshSessions.find? h = some session → session.revokedAt = some t →
    ok t ∨ ∃ session', b.refreshSessions.find? h = some session' ∧ session'.revokedAt = some t

namespace RevokesAt

variable {ok : Date → Prop}

/-- Nothing is revoked. -/
theorem refl (db : Database) : RevokesAt ok db db :=
  fun _ session _ hfound ht ↦ .inr ⟨session, hfound, ht⟩

/-- Revocations one after the other. -/
theorem trans {b c a : Database} (hbc : RevokesAt ok b c) (hca : RevokesAt ok c a) :
    RevokesAt ok b a := by
  intro h session t hfound ht
  rcases hca h session t hfound ht with hok | ⟨session', hfound', ht'⟩
  · exact .inl hok
  · exact hbc h session' t hfound' ht'

/-- A revocation. -/
theorem revoke {k : String} {now : Date} (hok : ok now) : RevokesAt ok db (db.revoke k now) := by
  intro h session t hfound ht
  rw [Database.find?_revoke] at hfound
  split at hfound
  · obtain ⟨session', -, rfl⟩ := Option.map_eq_some_iff.mp hfound
    cases ht
    exact .inl hok
  · exact .inr ⟨session, hfound, ht⟩

/-- A guarded revocation. -/
theorem revokeMany {condition : RefreshSession → Bool} {k : String} {now : Date} (hok : ok now)
    (env : Relational.Env Supply) (view : Database) :
    RevokesAt ok db ((Sql.revokeMany condition k now).write env view db) := by
  simp only [Sql.revokeMany]
  split
  · exact revoke hok
  · exact refl db

/-- A new session is not revoked. -/
theorem createRefreshSession {userId k : String} {expiresAt : Date}
    (env : Relational.Env Supply) (view : Database) :
    RevokesAt ok db ((Sql.createRefreshSession userId k expiresAt).write env view db) := by
  intro h session t hfound ht
  rcases Table.eq_or_of_find?_insert hfound with rfl | hold
  · cases ht
  · exact .inr ⟨session, hold, ht⟩

end RevokesAt

section

variable {ok : Date → Prop}

end

end Banking.Auth
