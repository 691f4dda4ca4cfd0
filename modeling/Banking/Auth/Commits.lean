import Banking.Auth.Service
import Banking.Relational.Guarantee

/-!
# Commits of the authentication service

The abstract model: what one committed call does to users and sessions, with its guards evaluated
at the moment of the commit, and the proof that the statements of the calls commit nothing else,
however they interleave. A rotation reads the session without a lock; its guarded update decides.
-/

namespace Banking.Auth

open Js (Date)
open Relational (Outcome Safe Table Tx)

/-! ### Single commits -/

/-- The session is exchanged for its successor: it was usable, and so was its user. -/
structure Exchanged (b a : Database) (tokenHash nextTokenHash : String) (session : RefreshSession)
    (user : User) (now nextExpiresAt : Date) : Prop where
  found : b.refreshSessions.find? tokenHash = some session
  unrevoked : session.revokedAt = none
  unexpired : now < session.expiresAt
  owner : b.users.find? session.userId = some user
  active : user.status = .ACTIVE
  present : user.deletedAt = none
  fresh : b.refreshSessions.find? nextTokenHash = none
  after : a = (b.revoke tokenHash now).addSession ⟨nextTokenHash, user.id, nextExpiresAt, none⟩

/-- What one commit of a call does, made by a process that owns the locks `own`. -/
inductive Commits (d : Deployment) : Call → (Lock → Prop) → Database → Database → Prop
  | createUser {email passwordHash own b user} (hfresh : b.users.find? user.id = none)
      (hlock : own (.userPk user.id)) :
      Commits d (.createUser email passwordHash) own b (b.addUser user)
  | login {email password own b user tokenHash expiresAt}
      (huser : b.users.find? user.id = some user) (hactive : user.status = .ACTIVE)
      (hpresent : user.deletedAt = none) (hfresh : b.refreshSessions.find? tokenHash = none)
      (hlock : own (.tokenHash tokenHash)) :
      Commits d (.login email password) own b (b.addSession ⟨tokenHash, user.id, expiresAt, none⟩)
  | refresh {token own b a nextTokenHash session user now nextExpiresAt}
      (h : Exchanged b a (d.hashRefreshToken token) nextTokenHash session user now nextExpiresAt)
      (hlock : own (.session (d.hashRefreshToken token)))
      (hnext : own (.tokenHash nextTokenHash)) : Commits d (.refresh token) own b a
  | logout {token own b session now}
      (hfound : b.refreshSessions.find? (d.hashRefreshToken token) = some session)
      (hunrevoked : session.revokedAt = none)
      (hlock : own (.session (d.hashRefreshToken token))) :
      Commits d (.logout token) own b (b.revoke (d.hashRefreshToken token) now)

variable {d : Deployment} {call : Call} {own : Lock → Prop} {b a : Database}

/-- Owning more locks forbids no commit. -/
theorem commits_mono (d : Deployment) : Relational.LockMonotone (Commits d) := by
  intro call own own' b a ho h
  cases h with
  | createUser hfresh hlock => exact .createUser hfresh (ho _ hlock)
  | login huser hactive hpresent hfresh hlock =>
    exact .login huser hactive hpresent hfresh (ho _ hlock)
  | refresh h hlock hnext => exact .refresh h (ho _ hlock) (ho _ hnext)
  | logout hfound hunrevoked hlock => exact .logout hfound hunrevoked (ho _ hlock)

/-- A revocation leaves the sessions that were there. -/
theorem find?_revoke_eq_none {db : Database} {tokenHash k : String} {now : Date} :
    (db.revoke tokenHash now).refreshSessions.find? k = none ↔
      db.refreshSessions.find? k = none := by
  rw [Database.find?_revoke]
  split
  · next he => rw [Option.map_eq_none_iff, he]
  · rfl

/-- A session that is revoked is another version of itself. -/
theorem find?_revoke_of_some {db : Database} {k tokenHash : String} {now : Date}
    {session : RefreshSession} (h : db.refreshSessions.find? k = some session) :
    (db.revoke tokenHash now).refreshSessions.find? k =
      some (if k = tokenHash then { session with revokedAt := some now } else session) := by
  rw [Database.find?_revoke]
  split
  · next he => rw [← he, h, Option.map_some]
  · exact h

/-- An exchange revokes its session, adds the successor and leaves the other sessions alone. -/
theorem Exchanged.find? {h h' : String} {session : RefreshSession} {user : User}
    {now nextExpiresAt : Date} (he : Exchanged b a h h' session user now nextExpiresAt)
    (k : String) :
    a.refreshSessions.find? k =
      if h' = k then some ⟨h', user.id, nextExpiresAt, none⟩
      else (b.revoke h now).refreshSessions.find? k := by
  rw [he.after]
  exact Table.find?_insert (find?_revoke_eq_none.mpr he.fresh) k

/-- A commit keeps a session as it is, or revokes it under its lock. -/
theorem Commits.session (hc : Commits d call own b a) {k : String} {session : RefreshSession}
    (hk : b.refreshSessions.find? k = some session) :
    a.refreshSessions.find? k = some session ∨
      session.revokedAt = none ∧ own (.session k) ∧
        ∃ now, a.refreshSessions.find? k = some { session with revokedAt := some now } := by
  cases hc with
  | createUser hfresh hown => exact .inl hk
  | login huser hactive hpresent hfresh hlock => exact .inl (Table.find?_insert_of_some hk)
  | @refresh token own b a nextTokenHash session' user now nextExpiresAt h hlock hnext =>
    have hne : nextTokenHash ≠ k := by
      rintro rfl
      rw [h.fresh] at hk
      cases hk
    rw [h.find?, if_neg hne, find?_revoke_of_some hk]
    by_cases hkh : k = d.hashRefreshToken token
    · subst hkh
      obtain rfl := Option.some.inj (hk.symm.trans h.found)
      exact .inr ⟨h.unrevoked, hlock, now, by rw [if_pos rfl]⟩
    · exact .inl (by rw [if_neg hkh])
  | @logout token own b session' now hfound hunrevoked hlock =>
    rw [find?_revoke_of_some hk]
    by_cases hkh : k = d.hashRefreshToken token
    · subst hkh
      obtain rfl := Option.some.inj (hk.symm.trans hfound)
      exact .inr ⟨hunrevoked, hlock, now, by rw [if_pos rfl]⟩
    · exact .inl (by rw [if_neg hkh])

/-- A commit adds a session under the lock on its hash only. -/
theorem Commits.fresh (hc : Commits d call own b a) {k : String}
    (hk : b.refreshSessions.find? k = none) (hlock : ¬ own (.tokenHash k)) :
    a.refreshSessions.find? k = none := by
  cases hc with
  | createUser hfresh hown => exact hk
  | @login email password own b user tokenHash expiresAt huser hactive hpresent hfresh hown =>
    have hne : tokenHash ≠ k := by
      rintro rfl
      exact hlock hown
    exact (Table.find?_insert_of_ne _ hne).trans hk
  | @refresh token own b a nextTokenHash session user now nextExpiresAt h hown hnext =>
    have hne : nextTokenHash ≠ k := by
      rintro rfl
      exact hlock hnext
    rw [h.find?, if_neg hne]
    exact find?_revoke_eq_none.mpr hk
  | logout hfound hunrevoked hown => exact find?_revoke_eq_none.mpr hk

/-- A commit keeps every user. -/
theorem Commits.user (hc : Commits d call own b a) {id : String} {user : User}
    (hu : b.users.find? id = some user) : a.users.find? id = some user := by
  cases hc with
  | createUser hfresh hown => exact Table.find?_insert_of_some hu
  | login huser hactive hpresent hfresh hlock => exact hu
  | refresh h hlock hnext =>
    rw [h.after]
    exact hu
  | logout hfound hunrevoked hlock => exact hu

/-- A commit adds a user under the lock on its identifier only. -/
theorem Commits.userFresh (hc : Commits d call own b a) {id : String}
    (hu : b.users.find? id = none) (hlock : ¬ own (.userPk id)) : a.users.find? id = none := by
  cases hc with
  | @createUser email passwordHash own b user hfresh hown =>
    have hne : user.id ≠ id := by
      rintro rfl
      exact hlock hown
    exact (Table.find?_insert_of_ne _ hne).trans hu
  | login huser hactive hpresent hfresh hown => exact hu
  | refresh h hown hnext =>
    rw [h.after]
    exact hu
  | logout hfound hunrevoked hown => exact hu

/-! ### Evolutions -/

/-- What the commits of others can make of a database. -/
abbrev Evolves (d : Deployment) : (Lock → Prop) → Database → Database → Prop :=
  Relational.Evolves (Commits d)

namespace Evolves

variable {db db' : Database} {k : String} {row : RefreshSession}

/-- Users stay. -/
theorem user (he : Evolves d own db db') {id : String} {user : User}
    (hu : db.users.find? id = some user) : db'.users.find? id = some user :=
  Relational.Evolves.invariant (P := fun db ↦ db.users.find? id = some user)
    (fun _ _ _ hc ↦ hc.user) he hu

/-- An identifier that others have no lock on stays unused. -/
theorem userFresh (he : Evolves d own db db') {id : String} (hu : db.users.find? id = none)
    (hlock : ¬ own (.userPk id)) : db'.users.find? id = none :=
  Relational.Evolves.invariant (P := fun db ↦ db.users.find? id = none)
    (fun _ _ _ hc hb ↦ hc.userFresh hb hlock) he hu

/-- A session stays, and keeps its user. -/
theorem session (he : Evolves d own db db') (hk : db.refreshSessions.find? k = some row) :
    ∃ revokedAt, db'.refreshSessions.find? k = some { row with revokedAt } := by
  refine Relational.Evolves.invariant
    (P := fun db ↦ ∃ revokedAt, db.refreshSessions.find? k = some { row with revokedAt })
    (fun call b a hc ⟨revokedAt, hb⟩ ↦ ?_) he ⟨row.revokedAt, hk⟩
  rcases hc.session hb with hsame | ⟨-, -, now, hrevoked⟩
  · exact ⟨revokedAt, hsame⟩
  · exact ⟨some now, hrevoked⟩

/-- A session that others have no lock on stays as it is. -/
theorem session_locked (he : Evolves d own db db')
    (hk : db.refreshSessions.find? k = some row) (hlock : ¬ own (.session k)) :
    db'.refreshSessions.find? k = some row :=
  Relational.Evolves.invariant (P := fun db ↦ db.refreshSessions.find? k = some row)
    (fun _ _ _ hc hb ↦ (hc.session hb).resolve_right fun h ↦ hlock h.2.1) he hk

/-- A hash that others have no lock on stays unused. -/
theorem fresh (he : Evolves d own db db') (hk : db.refreshSessions.find? k = none)
    (hlock : ¬ own (.tokenHash k)) : db'.refreshSessions.find? k = none :=
  Relational.Evolves.invariant (P := fun db ↦ db.refreshSessions.find? k = none)
    (fun _ _ _ hc hb ↦ hc.fresh hb hlock) he hk

end Evolves

end Banking.Auth
