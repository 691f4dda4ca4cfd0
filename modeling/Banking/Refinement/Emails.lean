import Banking.Refinement.Auth
import Banking.Relational.Footprint
import Banking.Relational.Linearization

/-!
# Emails are locked

`Commits` says under which locks a process adds users and sessions by their keys, but not that a
registration locks the email as well: the column is unique, and an insert waits for the uncommitted
insert of the same email.
-/

namespace Banking.Auth

open Relational (Footprint Table Tx)

/-- The emails of new users are locked. -/
def Emailed (own : Lock → Prop) (b a : Database) : Prop :=
  ∀ user ∈ a.users.rows, own (.email user.email) ∨ user ∈ b.users.rows

/-- Writes that lock the emails they insert compose. -/
theorem Emailed.footprint : Footprint Emailed where
  refl _ _ _ huser := .inr huser
  trans h k user huser := (k user huser).elim .inl (h user)
  mono ho h user huser := (h user huser).imp_left (ho _)

variable {d : Deployment} {own : Lock → Prop} {b a db db' : Database} {α : Type}

/-! ### The statements -/

/-- A statement that leaves the users alone. -/
private theorem emailed_query {s : Query α}
    (h : ∀ env view db, (s.write env view db).users = db.users) : (Tx.query s).Locks Emailed :=
  Tx.locks_query fun env view db _ huser ↦ .inr (h env view db ▸ huser)

private theorem emailed_createUser {email passwordHash : String} :
    (Tx.query (Sql.createUser email passwordHash)).Locks Emailed := by
  refine Tx.locks_query fun env view db user huser ↦ ?_
  rcases Table.mem_rows_insert huser with rfl | hold
  · exact .inl (List.mem_cons_self : Lock.email email ∈ _)
  · exact .inr hold

private theorem emailed_createRefreshSession {userId tokenHash : String} {expiresAt : Js.Date} :
    (Tx.query (Sql.createRefreshSession userId tokenHash expiresAt)).Locks Emailed :=
  emailed_query fun _ _ _ ↦ rfl

private theorem emailed_revokeMany {condition : RefreshSession → Bool} {tokenHash : String}
    {revokedAt : Js.Date} :
    (Tx.query (Sql.revokeMany condition tokenHash revokedAt)).Locks Emailed := by
  refine emailed_query fun _ view db ↦ ?_
  simp only [Sql.revokeMany]
  split <;> rfl

/-! ### The calls -/

private theorem emailed_tokenPair {userId refreshToken : String} {role : UserRole} :
    (tokenPair d userId role refreshToken).Locks Emailed :=
  (emailed_query fun _ _ _ ↦ rfl).bind fun _ ↦ trivial

private theorem emailed_login {email password : String} :
    (login d email password).Locks Emailed := by
  refine (emailed_query fun _ _ _ ↦ rfl).bind fun user ↦ ?_
  split
  · split
    · exact trivial
    · exact (emailed_query fun _ _ _ ↦ rfl).bind fun _ ↦ (emailed_query fun _ _ _ ↦ rfl).bind
        fun _ ↦ emailed_createRefreshSession.transaction.bind fun _ ↦ emailed_tokenPair
  · exact trivial

private theorem emailed_rotateInTransaction {input : RotateInput} :
    (rotateInTransaction input).Locks Emailed := by
  refine (emailed_query fun _ _ _ ↦ rfl).bind fun session ↦ ?_
  split
  · exact trivial
  refine (emailed_query fun _ _ _ ↦ rfl).bind fun user ↦ ?_
  split
  · exact trivial
  split
  · exact trivial
  refine emailed_revokeMany.bind fun count ↦ ?_
  split
  · exact trivial
  · exact emailed_createRefreshSession.bind fun _ ↦ trivial

private theorem emailed_refresh {token : String} : (refresh d token).Locks Emailed := by
  refine (emailed_query fun _ _ _ ↦ rfl).bind fun _ ↦ (emailed_query fun _ _ _ ↦ rfl).bind
    fun _ ↦ emailed_rotateInTransaction.transaction.bind fun user ↦ ?_
  split
  · exact trivial
  split
  · exact trivial
  · exact emailed_tokenPair

/-- Every call locks the emails it inserts. -/
theorem emailed_begins {call : Call} {db : Database} {program : Process Reply}
    (h : begins d call db = some program) : program.Locks Emailed := by
  cases call with
  | createUser email passwordHash =>
    cases h
    exact emailed_createUser.transaction.bind fun _ ↦ trivial
  | login email password =>
    cases h
    exact emailed_login.bind fun _ ↦ trivial
  | refresh token =>
    cases h
    exact emailed_refresh.bind fun _ ↦ trivial
  | logout token =>
    cases h
    refine Tx.Locks.bind ?_ fun _ ↦ trivial
    exact (emailed_query fun _ _ _ ↦ rfl).bind fun _ ↦
      emailed_revokeMany.transaction.bind fun _ ↦ trivial

/-! ### Commits -/

/-- What one commit of a call does, made by a process that has locked the emails it inserts. -/
def LockedCommits (d : Deployment) (call : Call) (own : Lock → Prop) (b a : Database) : Prop :=
  Commits d call own b a ∧ Emailed own b a

/-- Owning more locks forbids no commit. -/
theorem lockedCommits_mono (d : Deployment) : Relational.LockMonotone (LockedCommits d) :=
  fun call own own' b a ho h ↦
    ⟨commits_mono d call own own' b a ho h.1, Emailed.footprint.mono ho h.2⟩

/-- Locked commits are commits. -/
theorem evolves_of_locked (he : Relational.Evolves (LockedCommits d) own db db') :
    Evolves d own db db' :=
  he.weaken fun _ _ _ h ↦ h.1

/-- A new email that others have no lock on stays new. -/
theorem email_new (he : Relational.Evolves (LockedCommits d) own db db') {email : String}
    (hlock : ¬ own (.email email)) (hnew : ∀ user ∈ db.users.rows, user.email ≠ email) :
    ∀ user ∈ db'.users.rows, user.email ≠ email := by
  refine Relational.Evolves.invariant (P := fun db ↦ ∀ user ∈ db.users.rows, user.email ≠ email)
    (fun _ b a hc hb user huser ↦ ?_) he hnew
  rcases hc.2 user huser with hown | hold
  · rintro rfl
    exact hlock hown
  · exact hb user hold

end Banking.Auth
