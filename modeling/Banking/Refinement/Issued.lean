import Banking.Refinement.Tokens

/-!
# Users, sessions and tokens in reachable states

Every session and every pair of tokens goes back to a login that presented the password of its
user.
-/

namespace Banking.Auth

open Js (Date)
open Relational (Linked Promised Table)

/-- A login of the run has presented the password of the user. -/
def Vouched (d : Deployment) (s : SystemState) (user : User) : Prop :=
  ∃ c ∈ s.log, ∃ email password, c.call = .login email password ∧ Verified d email password user

/-- Every session belongs to a user of the kind. -/
def SessionsOf (V : User → Prop) (db : Database) : Prop :=
  ∀ k session, db.refreshSessions.find? k = some session →
    ∃ user, db.users.find? session.userId = some user ∧ V user

variable {d : Deployment} {users : Table User.id} {now : Date} {s : SystemState}
  {V : User → Prop} {call : Call} {b a : Database}

/-- Every process of a reachable state keeps its promises, or has ended as it promised. -/
theorem promised (h : Runs d (initial users now) s) :
    Promised (LockedCommits d) (Adds d) (Grants d) ⟨users, .empty⟩ s := by
  refine Promised.runs (lockedCommits_mono d) (fun t ht i call born next pending hi ↦ ?_)
    (fun _ _ _ _ hb ↦ promises_begins hb) h
  have hemailed := (Relational.Footed.runs Emailed.footprint emailed_begins ht i call born
    (.commit next) pending hi).2 t.db
  have hcommit := (sound ht).commit hi
  generalize pending t.db = a at hemailed hcommit
  cases hcommit with
  | refl => exact Relational.Evolves.refl _
  | single hcommit => exact .single ⟨hcommit, hemailed⟩

/-! ### Sessions -/

/-- A commit gives sessions to users of the kind only, if every login does. -/
private theorem SessionsOf.step (h : SessionsOf V b)
    (hc : Relation.ReflGen (Commits d call (fun _ ↦ True)) b a) (hadds : Adds d call b a)
    (hV : ∀ email password user, call = .login email password →
      Verified d email password user → V user) : SessionsOf V a := by
  cases hc with
  | refl => exact h
  | single hc =>
    intro k session hk
    cases hfound : b.refreshSessions.find? k with
    | some row =>
      obtain ⟨user, huser, hkind⟩ := h k row hfound
      have hsame : session.userId = row.userId := by
        rcases hc.session hfound with hsame | ⟨-, -, now, hrevoked⟩
        · rw [Option.some.inj (hk.symm.trans hsame)]
        · rw [Option.some.inj (hk.symm.trans hrevoked)]
      exact ⟨user, hsame ▸ hc.user huser, hkind⟩
    | none =>
      cases hc with
      | createUser hfresh hown =>
        rw [Database.refreshSessions_addUser, hfound] at hk
        cases hk
      | login huser hactive hpresent hfresh hlock =>
        obtain ⟨user, tokenHash, expiresAt, hverified, hfound', -, ha⟩ := hadds
        rw [ha] at hk ⊢
        rcases Table.eq_or_of_find?_insert hk with rfl | hold
        · exact ⟨user, hfound', hV _ _ _ rfl hverified⟩
        · rw [hfound] at hold
          cases hold
      | refresh he hlock hnext =>
        rw [he.find?, find?_revoke_eq_none.mpr hfound] at hk
        split at hk
        · cases hk
          obtain ⟨user, huser, hkind⟩ := h _ _ he.found
          obtain rfl := Option.some.inj (he.owner.symm.trans huser)
          refine ⟨_, ?_, hkind⟩
          rw [he.after, Table.key_of_find? he.owner]
          exact he.owner
        · cases hk
      | logout hfound' hunrevoked hlock =>
        rw [find?_revoke_eq_none.mpr hfound] at hk
        cases hk

/-- Every session of a reachable state belongs to a user who has logged in. -/
theorem sessions_vouched (h : Runs d (initial users now) s) : SessionsOf (Vouched d s) s.db := by
  refine (promised h).linked.invariant (fun c hc hb ↦ ?_) fun k session hk ↦ ?_
  · exact hb.step ((sound h).commits c hc).2.1 ((promised h).commits c hc)
      fun email password user hcall hverified ↦ ⟨c, hc, email, password, hcall, hverified⟩
  · simp [Table.find?] at hk

/-! ### Users -/

/-- No two users share an email. -/
def UniqueEmails (users : Table User.id) : Prop :=
  ∀ user ∈ users.rows, ∀ other ∈ users.rows, user.email = other.email → user = other

/-- A commit leaves the users alone or registers a customer under a new email. -/
private theorem users_of_commit (hc : Relation.ReflGen (Commits d call (fun _ ↦ True)) b a)
    (hadds : Adds d call b a) : a.users = b.users ∨ ∃ id email passwordHash,
      call = .createUser email passwordHash ∧ b.users.find? id = none ∧
      (∀ user ∈ b.users.rows, user.email ≠ email) ∧
      a = b.addUser ⟨id, email, passwordHash, .CUSTOMER, .ACTIVE, none⟩ := by
  cases hc with
  | refl => exact .inl rfl
  | single hc =>
    cases hc with
    | createUser hfresh hlock =>
      obtain ⟨id, hnew, hemail, ha⟩ := hadds
      exact .inr ⟨id, _, _, rfl, hnew, hemail, ha⟩
    | login huser hactive hpresent hfresh hlock => exact .inl rfl
    | refresh he hlock hnext =>
      rw [he.after]
      exact .inl rfl
    | logout hfound hunrevoked hlock => exact .inl rfl

/-- No two users ever share an email, unless they do at the beginning. -/
theorem emails_unique (h : Runs d (initial users now) s) (hu : UniqueEmails users) :
    UniqueEmails s.db.users := by
  refine (promised h).linked.invariant (P := fun db ↦ UniqueEmails db.users) (fun c hc hb ↦ ?_) hu
  rcases users_of_commit ((sound h).commits c hc).2.1 ((promised h).commits c hc) with hsame |
    ⟨id, email, passwordHash, -, hnew, hemail, ha⟩
  · rw [hsame]
    exact hb
  · rw [ha]
    intro user huser other hother he
    rcases Table.mem_rows_insert huser with rfl | huser <;>
      rcases Table.mem_rows_insert hother with rfl | hother
    · rfl
    · exact absurd he.symm (hemail other hother)
    · exact absurd he (hemail user huser)
    · exact hb user huser other hother he

/-- A user was there at the beginning, or the commit of a registration added them as a customer. -/
theorem exists_registration (h : Runs d (initial users now) s) {user : User}
    (hu : s.db.users.find? user.id = some user) : users.find? user.id = some user ∨
      user.role = .CUSTOMER ∧ ∃ c ∈ s.log, c.before.users.find? user.id = none ∧
        c.after.users.find? user.id = some user ∧
        c.call = .createUser user.email user.passwordHash ∧
        ∃ x, s.session c.session = some x ∧ x.call = c.call := by
  by_cases hfirst : users.find? user.id = some user
  · exact .inl hfirst
  obtain ⟨c, hc, hbefore, hafter⟩ := Relational.exists_commit
    (P := fun db : Database ↦ db.users.find? user.id = some user) h hfirst hu
  obtain ⟨⟨x, hx, hcall, -⟩, hcommit, -⟩ := (sound h).commits c hc
  rcases users_of_commit hcommit ((promised h).commits c hc) with hsame |
    ⟨id, email, passwordHash, hcreate, hnew, -, ha⟩
  · exact absurd (hsame ▸ hafter) hbefore
  · have hadded := hafter
    rw [ha] at hadded
    rcases Table.eq_or_of_find?_insert hadded with rfl | hold
    · exact .inr ⟨rfl, c, hc, hnew, hafter, hcreate, x, hx, hcall⟩
    · exact absurd hold hbefore

/-! ### Pairs of tokens -/

/-- A pair belongs to the user: the access token is signed for the user in the role of the row, and
the refresh token opens a session of the user. -/
structure Issued (d : Deployment) (db : Database) (user : User) (pair : TokenPair) : Prop where
  signed : Signed d db user pair.accessToken
  session : ∃ session, db.refreshSessions.find? (d.hashRefreshToken pair.refreshToken) =
    some session ∧ session.userId = user.id

/-- What a token is signed for stays so. -/
private theorem Signed.later {own : Lock → Prop} {db db' : Database} {user : User}
    {accessToken : String} (h : Signed d db user accessToken) (he : Evolves d own db db') :
    Signed d db' user accessToken :=
  { h with found := Evolves.user he h.found }

/-- The commit of a call that has made one is in the log. -/
private theorem exists_commit (h : Sound d users s) {i : Nat} {outcome : Relational.Outcome Reply}
    {born : Database} (hi : s.session i = some ⟨call, born, .done outcome⟩)
    (hcommits : s.commitsOf i = [(b, a)]) :
    ∃ c ∈ s.log, c.call = call ∧ c.before = b ∧ c.after = a := by
  have hmem : (b, a) ∈ s.commitsOf i := hcommits ▸ List.mem_singleton_self _
  obtain ⟨c, hc, hpair⟩ := List.mem_map.mp hmem
  obtain ⟨hlog, hsession⟩ := List.mem_filter.mp hc
  obtain ⟨⟨x, hx, hcall, -⟩, -⟩ := h.commits c hlog
  cases of_decide_eq_true hsession
  obtain rfl := Option.some.inj (hi.symm.trans hx)
  cases hpair
  exact ⟨c, hlog, hcall.symm, rfl, rfl⟩

/-- A pair that a call has returned belongs to a user who has logged in. -/
theorem pair_issued (h : Runs d (initial users now) s) {i : Nat} {born : Database}
    {pair : TokenPair} (hi : s.session i = some ⟨call, born, .done (.returned (.tokens pair))⟩) :
    ∃ user, Issued d s.db user pair ∧ Vouched d s user := by
  have hsound := sound h
  obtain hfailed | ⟨seen, ⟨k, -, hseen⟩, hgrants⟩ := (promised h).done i call born _ hi
  · cases hfailed
  -- what a call has seen is a database of the run
  have hlater : ∀ b ∈ seen, Evolves d (fun _ ↦ True) b s.db :=
    fun b hb ↦ hsound.evolves_history (List.mem_of_mem_drop (hseen b hb))
  cases call with
  | createUser email passwordHash => exact hgrants.elim
  | logout token => exact hgrants.elim
  | login email password =>
    obtain ⟨b, hb, user, hsigned, hverified, c, a, expiresAt, hcommits, hfresh, rfl⟩ := hgrants
    obtain ⟨commit, hcommit, hcall, rfl, hafter⟩ := exists_commit hsound hi hcommits
    refine ⟨user, ⟨hsigned.later (hlater b hb), ?_⟩, commit, hcommit, email, password, hcall,
      hverified⟩
    have hcreated : commit.after.refreshSessions.find? (d.hashRefreshToken pair.refreshToken) =
        some ⟨d.hashRefreshToken pair.refreshToken, user.id, expiresAt, none⟩ := by
      rw [hafter]
      exact Table.find?_insert_self hfresh
    obtain ⟨_, hfound⟩ := Evolves.session (hsound.commits commit hcommit).2.2.2 hcreated
    exact ⟨_, hfound, rfl⟩
  | refresh token =>
    obtain ⟨b, hb, user, hsigned, session, hsession, howner⟩ := hgrants
    obtain ⟨_, hfound⟩ := Evolves.session (hlater b hb) hsession
    have hnow := hsigned.later (hlater b hb)
    obtain ⟨user', huser', hvouched⟩ := sessions_vouched h _ _ hfound
    obtain rfl := Option.some.inj ((howner ▸ hnow.found).symm.trans huser')
    refine ⟨user, ⟨hnow, ?_⟩, hvouched⟩
    rcases hsound.done i _ born _ hi with hfailed | hends
    · cases hfailed
    obtain ⟨pair', c, a, found, owner, t, nextExpiresAt, hpair, hcommits, he⟩ := hends _ rfl
    cases hpair
    obtain ⟨commit, hcommit, -, rfl, rfl⟩ := exists_commit hsound hi hcommits
    obtain ⟨-, hcommitted, -, hafter⟩ := hsound.commits commit hcommit
    have hcreated := he.find? (d.hashRefreshToken pair.refreshToken)
    rw [if_pos rfl] at hcreated
    obtain ⟨_, hnew⟩ := Evolves.session hafter hcreated
    -- the session that was signed for and the exchanged one are versions of one row
    obtain ⟨_, hold⟩ := Evolves.session (Relational.Evolves.of_reflGen hcommitted) he.found
    obtain ⟨_, hlast⟩ := Evolves.session hafter hold
    have hsame : session.userId = found.userId := by
      simpa using congrArg RefreshSession.userId (Option.some.inj (hfound.symm.trans hlast))
    refine ⟨_, hnew, ?_⟩
    rw [← howner, hsame]
    exact (Table.key_of_find? he.owner : owner.id = found.userId)

end Banking.Auth
