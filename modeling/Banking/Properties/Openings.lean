import Banking.Properties.Gate
import Banking.Refinement.Openings

/-!
# Opening accounts while everything goes on

An administrator who has logged in opens accounts for users who may use the service. Whatever else
happens meanwhile, the state is one that the system reaches without opening accounts, from a
beginning at which the opened accounts are there, with nothing on them; only where the processes of
the engine started and what it has logged is left out.
-/

namespace Banking.Accounts

open Relational (Lifts Table)

/-- The user may use the service. -/
def MayUse (s : Auth.SystemState) (userId : String) : Prop :=
  ∃ user, s.db.users.find? userId = some user ∧ user.status = .ACTIVE ∧ user.deletedAt = none

/-- `request.auth` is that of an administrator who may use the service and has logged in. -/
def IsAdministrator (d : Auth.Deployment) (s : Auth.SystemState) (auth : Banking.Auth) : Prop :=
  auth.role = .ADMIN ∧ Api.Authorized d s auth

/-- The request has opened the account; where the connection failed after the commit, it was not
told. -/
def Phase.Opens (auth : Banking.Auth) (account : Account) (phase : Phase) : Prop :=
  phase = .opened auth (accountResponse account) ∨ phase = .lost auth account

/-- The request of an administrator has opened the account for a user. -/
structure OpenedFor (d : Api.Deployment) (s : State) (account : Account) : Prop where
  new : ∃ createdAt, account = newAccount account.id account.userId createdAt
  owner : MayUse s.auth account.userId
  requested : ∃ j auth phase, IsAdministrator d.auth s.auth auth ∧
    s.opening j = some (account.userId, phase) ∧ phase.Opens auth account

/-- The opened accounts explain the state: the API reaches it, but for where the processes of the
engine started and what it has logged, without opening any account, from a beginning with these
accounts as well. -/
structure Explained (d : Api.Deployment) (accounts : Table Account.id)
    (users : Table Auth.User.id) (now : Js.Date) (s : State) (opened : List Account) : Prop where
  openings : ∀ account ∈ opened, OpenedFor d s account
  responses : ∀ j userId auth response, s.opening j = some (userId, .opened auth response) →
    ∃ account ∈ opened, response = accountResponse account
  run : ∃ accounts' core, accounts'.rows = accounts.rows ++ opened ∧
    Api.Runs d (Api.initial accounts' users now) { s.toState with core } ∧ Lifts id s.core core

/-- What is known of a request to open an account. -/
def Phase.Genuine (d : Auth.Deployment) (s : Auth.SystemState) (userId : String) : Phase → Prop
  | .authorizing actor => (Api.Phase.authorizing actor).Genuine d s
  | .answered actor found => (Api.Phase.answered actor found).Genuine d s
  | .finding auth owner => owner = userId ∧ IsAdministrator d s auth
  | .inserting auth owner => owner = userId ∧ IsAdministrator d s auth ∧ MayUse s owner
  | .inserted auth account => account.userId = userId ∧ IsAdministrator d s auth ∧
    MayUse s account.userId ∧ ∃ createdAt, account = newAccount account.id account.userId createdAt
  | _ => True

/-- What every step keeps. -/
private structure Kept (d : Api.Deployment) (accounts : Table Account.id)
    (users : Table Auth.User.id) (now : Js.Date) (s : State) (opened : List Account) : Prop
    extends Explained d accounts users now s opened where
  genuine : ∀ j userId phase, s.opening j = some (userId, phase) →
    phase.Genuine d.auth s.auth userId

variable {d : Api.Deployment} {accounts : Table Account.id} {users : Table Auth.User.id}
  {now : Js.Date} {s s' : State} {opened : List Account} {userId : String}

/-! ### What stays -/

section Later

variable {d : Auth.Deployment} {a a' : Auth.SystemState}
variable (hruns : Auth.Runs d (Auth.initial users now) a)
  (ha : a' = a ∨ ∃ action, Relational.step (Auth.begins d) a action = some a')
include hruns ha

private theorem MayUse.later (h : MayUse a userId) : MayUse a' userId := by
  rcases ha with rfl | ha
  · exact h
  · obtain ⟨user, huser, hactive, hpresent⟩ := h
    have hlater := Auth.evolves hruns (Relation.ReflTransGen.single ha)
    exact ⟨user, hlater.user huser, hactive, hpresent⟩

private theorem IsAdministrator.later {auth : Banking.Auth} (h : IsAdministrator d a auth) :
    IsAdministrator d a' auth := by
  rcases ha with rfl | ⟨action, ha⟩
  · exact h
  · exact ⟨h.1, h.2.later hruns ha⟩

private theorem Phase.Genuine.after {phase : Phase} (h : phase.Genuine d a userId) :
    phase.Genuine d a' userId := by
  have hgate : ∀ gate : Api.Phase, gate.Genuine d a → gate.Genuine d a' := by
    intro gate hgate
    rcases ha with rfl | ⟨action, ha⟩
    · exact hgate
    · exact hgate.later hruns ha
  cases phase with
  | authorizing actor => exact hgate (.authorizing actor) h
  | answered actor found => exact hgate (.answered actor found) h
  | finding auth owner => exact ⟨h.1, h.2.later hruns ha⟩
  | inserting auth owner => exact ⟨h.1, h.2.1.later hruns ha, h.2.2.later hruns ha⟩
  | inserted auth account => exact ⟨h.1, h.2.1.later hruns ha, h.2.2.1.later hruns ha, h.2.2.2⟩
  | _ => exact trivial

end Later

/-! ### One step -/

namespace Kept

/-- The gate is guarded as in the run that explains the state. -/
private theorem guarded (hs : Api.SignsSubject d) (h : Kept d accounts users now s opened) :
    ∃ accounts' core, Api.Guarded d accounts' users now { s.toState with core } := by
  obtain ⟨accounts', core, -, hrun, -⟩ := h.run
  exact ⟨accounts', core, Api.guarded hs hrun⟩

/-- Everything else goes on. -/
private theorem api (hs : Api.SignsSubject d) (h : Kept d accounts users now s opened)
    {a : Api.Action} {next : Api.State} (hunforged : Api.Unforged d s.toState a)
    (ha : Api.step d s.toState a = some next) :
    Kept d accounts users now { s with toState := next } opened := by
  obtain ⟨accounts', core, hrows, hrun, hl⟩ := h.run
  have hauth := (Api.guarded hs hrun).auth
  obtain ⟨core', hcore', hl'⟩ := step_again hl ha
  have hlater := auth_cases ha
  refine ⟨⟨fun account hmem ↦ ?_, h.responses, accounts', core', hrows,
    hrun.tail ⟨a, unforged_withCore hunforged core, hcore'⟩, hl'⟩, fun j userId phase hj ↦ ?_⟩
  · have hopened := h.openings account hmem
    obtain ⟨j, auth, phase, hadministrator, hj, hopens⟩ := hopened.requested
    exact ⟨hopened.new, hopened.owner.later hauth hlater, j, auth, phase,
      hadministrator.later hauth hlater, hj, hopens⟩
  · exact (h.genuine j userId phase hj).after hauth hlater

/-- A request that has not opened an account moves on. -/
private theorem setOpening (h : Kept d accounts users now s opened) {j : Nat} {phase : Phase}
    (hj : ∀ userId phase auth account, s.opening j = some (userId, phase) →
      ¬ phase.Opens auth account)
    (hphase : phase.Genuine d.auth s.auth userId)
    (hnot : ∀ auth response, phase ≠ .opened auth response) :
    Kept d accounts users now (s.setOpening j userId phase) opened := by
  refine ⟨⟨fun account hmem ↦ ?_, fun k userId' auth response hk ↦ ?_, h.run⟩,
    fun k userId' phase' hk ↦ ?_⟩
  · have hopened := h.openings account hmem
    obtain ⟨k, auth, phase', hadministrator, hk, hopens⟩ := hopened.requested
    have hne : k ≠ j := fun he ↦ hj _ _ auth account (he ▸ hk) hopens
    exact ⟨hopened.new, hopened.owner, k, auth, phase', hadministrator,
      by simpa [State.setOpening, hne] using hk, hopens⟩
  · simp only [State.setOpening] at hk
    split at hk
    · cases hk
      exact absurd rfl (hnot auth response)
    · exact h.responses k userId' auth response hk
  · simp only [State.setOpening] at hk
    split at hk
    · cases hk
      exact hphase
    · exact h.genuine k userId' phase' hk

/-- The account of a commit might have been there from the beginning. -/
private theorem commit (hs : Api.SignsSubject d) (h : Kept d accounts users now s opened)
    {j : Nat} {ended : Banking.Auth → Account → Phase}
    (hopens : ∀ auth account, (ended auth account).Opens auth account)
    (hunguessed : Unguessed s j) (ha : s.commit j ended = some s') :
    ∃ opened', Kept d accounts users now s' opened' := by
  rw [State.commit] at ha
  split at ha
  case h_2 => cases ha
  next userId auth account hj =>
  split at ha
  · cases ha
  next hsome =>
  cases ha
  have hnew : s.core.db.accounts.find? account.id = none := by simpa using hsome
  have hnames := hunguessed userId auth account hj
  obtain ⟨rfl, hadministrator, howner, hfresh⟩ := h.genuine j userId _ hj
  obtain ⟨accounts', core, hrows, hrun, hl⟩ := h.run
  have hunnamed : Unnamed account.id core := by
    refine ⟨hl.db ▸ hnew, fun i x hx ↦ ?_⟩
    obtain ⟨call, born, phase⟩ := x
    have hsame := hl.session i
    rw [hx] at hsame
    obtain ⟨x', hx', he⟩ := Option.map_eq_some_iff.mp hsame.symm
    cases he
    exact hnames i x' hx'
  have hbeginning : accounts'.find? account.id = none := by
    by_contra hfound
    obtain ⟨a, ha⟩ := Option.ne_none_iff_exists'.mp hfound
    obtain ⟨balance, hlater⟩ := Evolves.account (sound (Api.guarded hs hrun).core).evolved ha
    rw [hunnamed.account] at hlater
    cases hlater
  obtain ⟨core', hrun', hl', -⟩ := exists_run_with hs hrun hunnamed
  refine ⟨opened ++ [account], ⟨fun account' hmem ↦ ?_, fun k userId' auth' response hk ↦ ?_,
    accounts'.insert account, core', ?_, hrun', ?_⟩, fun k userId' phase hk ↦ ?_⟩
  · rcases List.mem_append.mp hmem with hold | hlast
    · have hopened := h.openings account' hold
      obtain ⟨k, auth', phase, hadministrator', hk, hopens'⟩ := hopened.requested
      have hne : k ≠ j := by
        rintro rfl
        obtain rfl := (Prod.mk.inj (Option.some.inj (hj.symm.trans hk))).2
        rcases hopens' with he | he <;> cases he
      exact ⟨hopened.new, hopened.owner, k, auth', phase, hadministrator',
        by simpa [State.setOpening, State.addAccount, hne] using hk, hopens'⟩
    · obtain rfl := List.mem_singleton.mp hlast
      exact ⟨hfresh, howner, j, auth, _, hadministrator, by simp [State.setOpening],
        hopens auth account'⟩
  · simp only [State.setOpening, State.addAccount] at hk
    split at hk
    · have hphase := (Prod.mk.inj (Option.some.inj hk)).2
      rcases hopens auth account with he | he
      · obtain ⟨-, rfl⟩ := Phase.opened.inj (he.symm.trans hphase)
        exact ⟨account, by simp, rfl⟩
      · rw [he] at hphase
        cases hphase
    · obtain ⟨a, ha, he⟩ := h.responses k userId' auth' response hk
      exact ⟨a, List.mem_append_left _ ha, he⟩
  · rw [Table.rows_insert hbeginning, hrows, List.append_assoc]
  · refine ⟨?_, hl'.clock.trans hl.clock, hl'.owner.trans hl.owner,
      fun i ↦ (hl'.session i).trans (hl.session i)⟩
    exact hl'.db.trans (congrArg (addAccount account) hl.db)
  · simp only [State.setOpening, State.addAccount] at hk
    split at hk
    · obtain ⟨-, rfl⟩ := Prod.mk.inj (Option.some.inj hk)
      rcases hopens auth account with he | he <;> exact he ▸ trivial
    · exact h.genuine k userId' phase hk

/-- A request that the gate admits is that of an administrator, for the user of its path. -/
private theorem admission_genuine {actor : String} {found : Option UserRole}
    {auth : Banking.Auth} {owner : String}
    (h : (Phase.answered actor found).Genuine d.auth s.auth userId)
    (hok : admission userId actor found = .ok (auth, owner)) :
    (Phase.finding auth owner).Genuine d.auth s.auth userId := by
  cases found with
  | none => cases hok
  | some role =>
    simp only [admission, Auth.authorization, bind, Except.bind] at hok
    split at hok
    · cases hok
    · split at hok
      · cases hok
      · next parsed hparsed =>
        have hpath : Zod.uuid (some (.str userId)) = some parsed := hparsed
        obtain rfl : userId = parsed := Option.some.inj (Zod.refine_eq_some.mp hpath).1
        cases hcreate : createAccount ⟨actor, role⟩ with
        | error error => simp [hcreate] at hok
        | ok u =>
          simp only [hcreate] at hok
          cases hok
          refine ⟨rfl, ?_, h role rfl⟩
          simp only [createAccount] at hcreate
          split at hcreate
          · cases hcreate
          · next hadmin => exact not_not.mp hadmin

/-- One step keeps it, with the account that it opens, if any. -/
private theorem step (hs : Api.SignsSubject d) (h : Kept d accounts users now s opened)
    {a : Action} (hhonest : Honest d s a) (ha : Accounts.step d s a = some s') :
    ∃ opened', Kept d accounts users now s' opened' := by
  -- a request that goes on has not opened an account
  have hother : ∀ {j userId phase}, s.opening j = some (userId, phase) →
      (∀ auth account, ¬ phase.Opens auth account) →
      ∀ userId phase auth account, s.opening j = some (userId, phase) →
        ¬ phase.Opens auth account := by
    intro j userId phase hj hphase userId' phase' auth account hj'
    obtain rfl := (Prod.mk.inj (Option.some.inj (hj.symm.trans hj'))).2
    exact hphase auth account
  cases a with
  | api a =>
    obtain ⟨next, hnext, rfl⟩ := Option.map_eq_some_iff.mp ha
    exact ⟨opened, h.api hs hhonest hnext⟩
  | request j userId header =>
    simp only [Accounts.step] at ha
    split at ha
    · cases ha
    · next hj =>
      cases ha
      refine ⟨opened, h.setOpening (by simp [hj]) ?_ fun _ _ he ↦ by split at he <;> cases he⟩
      cases hok : Auth.authenticate (d.jwtVerify s.auth.clock) header with
      | error error => exact trivial
      | ok actor =>
        obtain ⟨accounts', core, hguarded⟩ := h.guarded hs
        have hunforged := unforged_withCore (hhonest (.createUser none)) core
        exact Api.authenticate_genuine hs hguarded hunforged hok
  | lookup j =>
    simp only [Accounts.step] at ha
    split at ha
    · next userId actor hj =>
      cases ha
      refine ⟨opened, h.setOpening (hother hj (by simp [Phase.Opens])) ?_ (by simp)⟩
      exact Api.lookup_genuine (s := s.toState) (h.genuine j userId _ hj)
    · cases ha
  | resume j =>
    simp only [Accounts.step] at ha
    split at ha
    · next userId actor found hj =>
      cases ha
      refine ⟨opened, h.setOpening (hother hj (by simp [Phase.Opens])) ?_ fun _ _ he ↦ by
        split at he <;> cases he⟩
      cases hok : admission userId actor found with
      | error error => exact trivial
      | ok admitted => exact admission_genuine (h.genuine j userId _ hj) hok
    · cases ha
  | find j =>
    simp only [Accounts.step] at ha
    split at ha
    · next userId auth owner hj =>
      cases ha
      refine ⟨opened, h.setOpening (hother hj (by simp [Phase.Opens])) ?_ fun _ _ he ↦ by
        split at he <;> cases he⟩
      obtain ⟨hpath, hadministrator⟩ := h.genuine j userId _ hj
      cases hfound : findActiveUser s.auth.db owner with
      | none => exact trivial
      | some user =>
        obtain ⟨huser, hid, hactive, hpresent⟩ := findActiveUser_eq_some hfound
        exact ⟨hid.trans hpath, hadministrator, user, hid.symm ▸ huser, hactive, hpresent⟩
    · cases ha
  | insert j id =>
    simp only [Accounts.step] at ha
    split at ha
    · next userId auth owner hj =>
      cases ha
      refine ⟨opened, h.setOpening (hother hj (by simp [Phase.Opens])) ?_ fun _ _ he ↦ by
        split at he <;> cases he⟩
      obtain ⟨hpath, hadministrator, howner⟩ := h.genuine j userId _ hj
      split
      · exact trivial
      · exact ⟨hpath, hadministrator, howner, _, rfl⟩
    · cases ha
  | commit j => exact h.commit hs (fun auth account ↦ .inl rfl) hhonest ha
  | lose j => exact h.commit hs (fun auth account ↦ .inr rfl) hhonest ha
  | fail j =>
    simp only [Accounts.step] at ha
    split at ha
    · cases ha
    · cases ha
    · cases ha
    · next userId phase hrefused hopened hlost hj =>
      cases ha
      refine ⟨opened, h.setOpening (hother hj fun auth account he ↦ ?_) trivial (by simp)⟩
      rcases he with he | he
      · exact hopened _ _ he
      · exact hlost _ _ he
    · cases ha

end Kept

/-- In every state of a run in which nobody forges a token or guesses an identifier, some opened
accounts explain the state. -/
theorem openings_explained (hs : Api.SignsSubject d)
    (h : Runs d (initial accounts users now) s) :
    ∃ opened, Explained d accounts users now s opened := by
  suffices hkept : ∃ opened, Kept d accounts users now s opened by
    obtain ⟨opened, hkept⟩ := hkept
    exact ⟨opened, hkept.toExplained⟩
  refine Relational.StepsUnder.invariant
    (P := fun s ↦ ∃ opened, Kept d accounts users now s opened)
    (fun _ _ _ hhonest ha hi ↦ ?_) h ⟨[], ⟨⟨?_, ?_, ?_⟩, ?_⟩⟩
  · obtain ⟨opened, hi⟩ := hi
    exact hi.step hs hhonest ha
  · intro account hmem
    cases hmem
  · intro j userId auth response hj
    cases hj
  · exact ⟨accounts, _, (List.append_nil _).symm, .refl, .refl _⟩
  · intro j userId phase hj
    cases hj

/-! ### Runs -/

namespace Sample

/-- The deployment of the API. -/
private abbrev deployment : Api.Deployment := Api.Sample.deployment

/-- A customer, whose identifier is a UUID, and an administrator. -/
def people : Table Auth.User.id :=
  ⟨[⟨"550e8400-e29b-41d4-a716-446655440001", "user@example.com", "secret", .CUSTOMER, .ACTIVE,
      none⟩,
    ⟨"admin-1", "admin@example.com", "secret", .ADMIN, .ACTIVE, none⟩], by decide⟩

/-- Nothing has happened to the account and the users. -/
def start : State := initial Banking.Sample.accounts people 1000

/-- The identifier that is generated for the account. -/
def accountId : String := "550e8400-e29b-41d4-a716-446655440002"

/-- The identifier that is generated for the account of the second request. -/
def lostId : String := "550e8400-e29b-41d4-a716-446655440003"

/-- The administrator logs in and opens an account for the customer, and then another, but the
connection fails before the second answer. -/
def opening : List Action :=
  (Api.Sample.login "admin@example.com").map .api ++
  [.request 0 "550e8400-e29b-41d4-a716-446655440001" (some "Bearer admin-1"), .lookup 0,
    .resume 0, .find 0, .insert 0 accountId, .commit 0,
    .request 1 "550e8400-e29b-41d4-a716-446655440001" (some "Bearer admin-1"), .lookup 1,
    .resume 1, .find 1, .insert 1 lostId, .lose 1]

/-- The administrator credits the account. -/
def credit : List Api.Action :=
  [.request 0 (.createTransaction (some (.obj [("transactionId", .str "txn-1"),
      ("accountId", .str accountId), ("type", .str "CREDIT"), ("amountMinor", .str "10"),
      ("deviceFingerprint", .str "device-1")])) none none) (some "Bearer admin-1"),
    .lookup 0, .resume 0 0 .empty ""] ++ (Banking.Sample.execute 0 13 0).map .core

/-- The token at the gate is the one that process 0 has returned, and the engine has nothing to
do. -/
def quiet (s : State) : Action → Bool
  | .api (.login _ _) => true
  | .api (.auth _) => true
  | .api _ => false
  | .request j _ header => Api.Sample.presents s.toState (.request j (.createUser none) header)
  | _ => true

/-- The rest of the API, with the token that process 0 has returned. -/
def presents (s : State) : Action → Bool
  | .api a => Api.Sample.presents s.toState a
  | _ => false

private theorem session_of_commit {s s' : State} {j : Nat} {ended : Banking.Auth → Account → Phase}
    (ha : s.commit j ended = some s') : s'.core.session = s.core.session := by
  rw [State.commit] at ha
  split at ha
  · split at ha
    · cases ha
    · cases ha
      rfl
  · cases ha

/-- The engine is left alone. -/
private theorem session_of_quiet {s s' : State} {a : Action} (hquiet : quiet s a = true)
    (ha : step deployment s a = some s') : s'.core.session = s.core.session := by
  cases a with
  | api a =>
    obtain ⟨next, hnext, rfl⟩ := Option.map_eq_some_iff.mp ha
    cases a with
    | login i body =>
      obtain ⟨input, -, hnext⟩ := Option.bind_eq_some_iff.mp hnext
      obtain ⟨auth, -, rfl⟩ := Option.map_eq_some_iff.mp hnext
      rfl
    | auth a =>
      simp only [Api.step] at hnext
      split at hnext
      · cases hnext
      · obtain ⟨auth, -, rfl⟩ := Option.map_eq_some_iff.mp hnext
        rfl
    | _ => cases hquiet
  | commit j => exact session_of_commit ha
  | lose j => exact session_of_commit ha
  | _ =>
    simp only [step] at ha
    split at ha <;> cases ha
    rfl

/-- As long as the engine has nothing to do, nobody forges or guesses. -/
theorem runs_quiet {actions : List Action} {s : State}
    (h : Relational.executeUnder (step deployment) quiet start actions = some s) :
    Runs deployment (initial Banking.Sample.accounts people 1000) s := by
  suffices hrun : Runs deployment start s ∧ ∀ i, s.core.session i = none from hrun.1
  have hsteps := Relational.stepsUnder_of_execute h
  clear h
  induction hsteps with
  | refl => exact ⟨.refl, fun i ↦ rfl⟩
  | @tail t t' _ hstep ih =>
    obtain ⟨a, hquiet, ha⟩ := hstep
    refine ⟨ih.1.tail ⟨a, ?_, ha⟩, fun i ↦ by rw [session_of_quiet hquiet ha, ih.2 i]⟩
    cases a with
    | api a =>
      cases a with
      | login i body => exact trivial
      | auth a => exact trivial
      | _ => cases hquiet
    | request j userId header => exact fun _ ↦ Api.Sample.unforged_of_presents hquiet
    | commit j =>
      intro userId auth account _ i x hx
      rw [ih.2 i] at hx
      cases hx
    | lose j =>
      intro userId auth account _ i x hx
      rw [ih.2 i] at hx
      cases hx
    | _ => exact trivial

/-- Requests with returned tokens are honest. -/
theorem runs_presents {actions : List Action} {s s' : State}
    (h : Relational.executeUnder (step deployment) presents s actions = some s') :
    Runs deployment s s' := by
  refine Relation.ReflTransGen.mono (fun t t' hstep ↦ ?_) _ _ (Relational.stepsUnder_of_execute h)
  obtain ⟨a, hcheck, ha⟩ := hstep
  refine ⟨a, ?_, ha⟩
  cases a with
  | api a => exact Api.Sample.unforged_of_presents hcheck
  | _ => cases hcheck

end Sample

/-- Two accounts that an administrator has opened for a customer, one of which was credited. -/
theorem openings_explained_credit : ∃ s₁ s opened, Relational.executeUnder
    (step Api.Sample.deployment) Sample.quiet Sample.start Sample.opening = some s₁ ∧
      Relational.executeUnder (step Api.Sample.deployment) Sample.presents s₁
        (Sample.credit.map .api) = some s ∧
      (s.core.db.accounts.find? Sample.accountId).map Account.balance = some 10 ∧
      (s.core.db.accounts.find? Sample.lostId).map Account.balance = some 0 ∧
      Explained Api.Sample.deployment Banking.Sample.accounts Sample.people 1000 s opened := by
  have hrun : ((Relational.executeUnder (step Api.Sample.deployment) Sample.quiet Sample.start
      Sample.opening).bind fun s₁ ↦ Relational.executeUnder (step Api.Sample.deployment)
        Sample.presents s₁ (Sample.credit.map .api)).map
      (fun s ↦ ((s.core.db.accounts.find? Sample.accountId).map Account.balance,
        (s.core.db.accounts.find? Sample.lostId).map Account.balance)) =
          some (some 10, some 0) := by
    decide +kernel
  obtain ⟨s, hs, hbalances⟩ := Option.map_eq_some_iff.mp hrun
  obtain ⟨hbalance, hlost⟩ := Prod.mk.inj hbalances
  obtain ⟨s₁, hs₁, hs⟩ := Option.bind_eq_some_iff.mp hs
  obtain ⟨opened, hexplained⟩ := openings_explained Api.Sample.signsSubject
    ((Sample.runs_quiet hs₁).trans (Sample.runs_presents hs))
  exact ⟨s₁, s, opened, hs₁, hs, hbalance, hlost, hexplained⟩

end Banking.Accounts
