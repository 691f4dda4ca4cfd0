import Banking.Refinement.Issued
import Banking.Refinement.System
import Banking.System.Api

/-!
# Who is behind the calls

In a run in which nobody forges a token, every request to the engine and every registration that
has started is that of an admitted request, and its `request.auth` that of a user who may use the
service and has logged in.
-/

namespace Banking.Api

open Auth (Vouched)
open Relational (Table)

/-- `request.auth` is the current authorization of a user who has logged in. -/
def Authorized (d : Auth.Deployment) (s : Auth.SystemState) (auth : Banking.Auth) : Prop :=
  ∃ user, s.db.users.find? auth.userId = some user ∧ user.status = .ACTIVE ∧
    user.deletedAt = none ∧ user.role = auth.role ∧ Vouched d s user

/-- What is known of a request at the gate. -/
def Phase.Genuine (d : Auth.Deployment) (s : Auth.SystemState) : Phase → Prop
  | .authorizing userId => ∃ user, s.db.users.find? userId = some user ∧ Vouched d s user
  | .answered userId found => ∀ role, found = some role → Authorized d s ⟨userId, role⟩
  | .admitted auth _ _ => Authorized d s auth
  | .refused _ => True

/-- A token that verifies has the subject that it was signed for. -/
def SignsSubject (d : Deployment) : Prop :=
  ∀ userId role jti iat token now payload, d.auth.sign userId role jti iat = some token →
    d.jwtVerify now token = .verified payload → payload.sub = some userId

/-- What holds in every state of a run without forgery. -/
structure Guarded (d : Deployment) (accounts : Table Account.id) (users : Table Auth.User.id)
    (now : Js.Date) (s : State) : Prop where
  core : Banking.Runs d.core (Banking.initial accounts now) s.core
  auth : Auth.Runs d.auth (Auth.initial users now) s.auth
  requests : ∀ j route phase, s.request j = some (route, phase) → phase.Genuine d.auth s.auth
  handled : ∀ j route auth work i, s.request j = some (route, .admitted auth work i) →
    ∃ events salt, route.handle d auth events salt = .ok work
  creates : ∀ i x input request, s.core.session i = some x → x.call = .create input request →
    ∃ j route auth, s.request j = some (route, .admitted auth (.core (.create input request)) i)
  registers : ∀ i x email passwordHash, s.auth.session i = some x →
    x.call = .createUser email passwordHash →
    ∃ j route auth,
      s.request j = some (route, .admitted auth (.auth (.createUser email passwordHash)) i)

variable {d : Deployment} {accounts : Table Account.id} {users : Table Auth.User.id}
  {now : Js.Date} {s s' : State}

/-! ### What stays -/

theorem Vouched.later {d : Auth.Deployment} {a a' : Auth.SystemState}
    {action : Auth.SystemAction} (ha : Relational.step (Auth.begins d) a action = some a')
    {user : Auth.User} (h : Vouched d a user) : Vouched d a' user := by
  obtain ⟨c, hc, hlogin⟩ := h
  exact ⟨c, Relational.mem_log_step ha hc, hlogin⟩

theorem Authorized.later {d : Auth.Deployment} {users : Table Auth.User.id}
    {a a' : Auth.SystemState} (hruns : Auth.Runs d (Auth.initial users now) a)
    {action : Auth.SystemAction} (ha : Relational.step (Auth.begins d) a action = some a')
    {auth : Banking.Auth} (h : Authorized d a auth) : Authorized d a' auth := by
  obtain ⟨user, huser, hactive, hpresent, hrole, hvouched⟩ := h
  have hlater := Auth.evolves hruns (Relation.ReflTransGen.single ⟨action, ha⟩)
  exact ⟨user, hlater.user huser, hactive, hpresent, hrole, Vouched.later ha hvouched⟩

theorem Phase.Genuine.later {d : Auth.Deployment} {users : Table Auth.User.id}
    {a a' : Auth.SystemState} (hruns : Auth.Runs d (Auth.initial users now) a)
    {action : Auth.SystemAction} (ha : Relational.step (Auth.begins d) a action = some a')
    {phase : Phase} (h : phase.Genuine d a) : phase.Genuine d a' := by
  cases phase with
  | authorizing userId =>
    obtain ⟨user, huser, hvouched⟩ := h
    have hlater := Auth.evolves hruns (Relation.ReflTransGen.single ⟨action, ha⟩)
    exact ⟨user, hlater.user huser, Vouched.later ha hvouched⟩
  | answered userId found => exact fun role hrole ↦ (h role hrole).later hruns ha
  | refused error => exact trivial
  | admitted auth work i => exact Authorized.later hruns ha h

/-! ### Steps of the parts -/

namespace Guarded

/-- The engine moves; a request to it must have been admitted. -/
private theorem stepCore (h : Guarded d accounts users now s) {a : SystemAction}
    (ha : s.stepCore d a = some s')
    (hcreate : ∀ i input request, a = .start i (.create input request) → ∃ j route auth,
      s.request j = some (route, .admitted auth (.core (.create input request)) i)) :
    Guarded d accounts users now s' := by
  obtain ⟨core, hcore, rfl⟩ := Option.map_eq_some_iff.mp ha
  refine ⟨h.core.tail ⟨a, hcore⟩, h.auth, h.requests, h.handled, ?_, h.registers⟩
  intro i x input request hx hcall
  rcases Relational.call_step hcore hx with ⟨x₀, hx₀, hsame⟩ | rfl
  · exact h.creates i x₀ input request hx₀ (hsame.trans hcall)
  · exact hcreate i input request (by rw [hcall])

/-- The authentication service moves; a registration must have been admitted. -/
private theorem stepAuth (h : Guarded d accounts users now s) {a : Auth.SystemAction}
    (ha : s.stepAuth d a = some s')
    (hregister : ∀ i email passwordHash, a = .start i (.createUser email passwordHash) →
      ∃ j route auth,
        s.request j = some (route, .admitted auth (.auth (.createUser email passwordHash)) i)) :
    Guarded d accounts users now s' := by
  obtain ⟨auth, hauth, rfl⟩ := Option.map_eq_some_iff.mp ha
  refine ⟨h.core, h.auth.tail ⟨a, hauth⟩, fun j route phase hj ↦
    (h.requests j route phase hj).later h.auth hauth, h.handled, h.creates, ?_⟩
  intro i x email passwordHash hx hcall
  rcases Relational.call_step hauth hx with ⟨x₀, hx₀, hsame⟩ | rfl
  · exact h.registers i x₀ email passwordHash hx₀ (hsame.trans hcall)
  · exact hregister i email passwordHash (by rw [hcall])

/-- A request that was not admitted moves on. -/
private theorem setRequest (h : Guarded d accounts users now s) {j : Nat} {route : Route}
    {phase : Phase} (hphase : phase.Genuine d.auth s.auth)
    (hhandled : ∀ auth work i, phase = .admitted auth work i →
      ∃ events salt, route.handle d auth events salt = .ok work)
    (hbefore : ∀ route auth work i, s.request j ≠ some (route, .admitted auth work i)) :
    Guarded d accounts users now (s.setRequest j route phase) := by
  -- admitted requests stay
  have hkept : ∀ {k route' auth work i}, s.request k = some (route', .admitted auth work i) →
      (s.setRequest j route phase).request k = some (route', .admitted auth work i) := by
    intro k route' auth work i hk
    have hne : k ≠ j := by
      rintro rfl
      exact hbefore _ _ _ _ hk
    simpa [State.setRequest, hne] using hk
  refine ⟨h.core, h.auth, fun k route' phase' hk ↦ ?_, fun k route' auth work i hk ↦ ?_,
    fun i x input request hx hcall ↦ ?_, fun i x email passwordHash hx hcall ↦ ?_⟩
  · simp only [State.setRequest] at hk
    split at hk
    · cases hk
      exact hphase
    · exact h.requests k route' phase' hk
  · simp only [State.setRequest] at hk
    split at hk
    · cases hk
      exact hhandled auth work i rfl
    · exact h.handled k route' auth work i hk
  · obtain ⟨k, route', auth, hk⟩ := h.creates i x input request hx hcall
    exact ⟨k, route', auth, hkept hk⟩
  · obtain ⟨k, route', auth, hk⟩ := h.registers i x email passwordHash hx hcall
    exact ⟨k, route', auth, hkept hk⟩

end Guarded

/-! ### The gate -/

/-- A handler calls the engine for what the body asks, as the user. -/
theorem handle_eq_create {route : Route} {auth : Banking.Auth} {events : Listeners} {salt : String}
    {input : CreateTransactionInput} {request : Request}
    (h : route.handle d auth events salt = .ok (.core (.create input request))) :
    ∃ body ip forwardedFor, route = .createTransaction body ip forwardedFor ∧
      createTransactionSchema body = some input ∧ request = ⟨some auth, ip, forwardedFor⟩ := by
  cases route with
  | createTransaction body ip forwardedFor =>
    simp only [Route.handle] at h
    split at h
    · cases h
    · cases h
    · next input' called hpost hinput =>
      cases h
      obtain ⟨input', hschema, hcalled⟩ := Option.bind_eq_some_iff.mp hinput
      obtain ⟨called', -, heq⟩ := Option.bind_eq_some_iff.mp hcalled
      cases heq
      exact ⟨body, ip, forwardedFor, rfl, hschema, rfl⟩
  | createUser body =>
    simp only [Route.handle] at h
    split at h
    · cases h
    · next input' _ =>
      unfold Api.createUser at h
      split at h
      · cases h
      · split at h <;> cases h

/-- A handler registers the user that the body describes, for an administrator. -/
theorem handle_eq_createUser {route : Route} {auth : Banking.Auth} {events : Listeners}
    {salt : String} {email passwordHash : String}
    (h : route.handle d auth events salt = .ok (.auth (.createUser email passwordHash))) :
    auth.role = .ADMIN ∧ ∃ body input, route = .createUser body ∧
      Auth.createUserSchema body = some input ∧ input.email = email ∧
      d.hash salt input.password = some passwordHash := by
  cases route with
  | createTransaction body ip forwardedFor =>
    simp only [Route.handle] at h
    split at h <;> cases h
  | createUser body =>
    simp only [Route.handle] at h
    split at h
    · cases h
    · next input hinput =>
      unfold Api.createUser at h
      split at h
      · cases h
      · next hadmin =>
        split at h
        · cases h
        · next hash hhash =>
          cases h
          exact ⟨not_not.mp hadmin, body, input, rfl, hinput, rfl, hhash⟩

/-- What an admitted request calls. -/
private theorem admission_eq_ok {route : Route} {userId : String} {found : Option UserRole}
    {events : Listeners} {salt : String} {auth : Banking.Auth} {work : Work}
    (h : route.admission d userId found events salt = .ok (auth, work)) :
    ∃ role, found = some role ∧ auth = ⟨userId, role⟩ ∧
      route.handle d auth events salt = .ok work := by
  cases found with
  | none => cases h
  | some role =>
    simp only [Route.admission, Auth.authorization, bind, Except.bind] at h
    split at h
    · cases h
    · split at h
      · cases h
      · next work' hhandle =>
        cases h
        exact ⟨role, rfl, rfl, hhandle⟩

/-- The header of a genuine request names a user who has logged in. -/
theorem authenticate_genuine (hs : SignsSubject d) (h : Guarded d accounts users now s)
    {j : Nat} {route : Route} {header : Option String} {userId : String}
    (hunforged : Unforged d s (.request j route header))
    (hok : Auth.authenticate (d.jwtVerify s.auth.clock) header = .ok userId) :
    (Phase.authorizing userId).Genuine d.auth s.auth := by
  obtain ⟨token, payload, htoken, hverified, hsub⟩ := Auth.authenticate_eq_ok hok
  obtain ⟨i, call, born, pair, hi, rfl⟩ := hunforged token payload htoken hverified
  obtain ⟨user, ⟨hsigned, -⟩, hvouched⟩ := Auth.pair_issued h.auth hi
  obtain ⟨jti, iat, hsign⟩ := hsigned.signed
  obtain rfl := Option.some.inj (hsub.symm.trans (hs _ _ _ _ _ _ _ hsign hverified))
  exact ⟨user, hsigned.found, hvouched⟩

/-- The answer to the query is the current authorization. -/
theorem lookup_genuine {userId : String}
    (h : (Phase.authorizing userId).Genuine d.auth s.auth) :
    (Phase.answered userId (Auth.findActiveAuthorization s.auth.db userId)).Genuine d.auth
      s.auth := by
  intro role hrole
  obtain ⟨user, huser, hvouched⟩ := h
  obtain ⟨user', huser', hactive, hpresent, hsame⟩ := Auth.findActiveAuthorization_eq_some hrole
  obtain rfl := Option.some.inj (huser.symm.trans huser')
  exact ⟨user, huser, hactive, hpresent, hsame, hvouched⟩

/-! ### Runs -/

/-- One step keeps the guard. -/
theorem Guarded.step (hs : SignsSubject d) (h : Guarded d accounts users now s) {a : Action}
    (hunforged : Unforged d s a) (ha : Api.step d s a = some s') :
    Guarded d accounts users now s' := by
  cases a with
  | core a =>
    simp only [Api.step] at ha
    split at ha
    · cases ha
    · next hcreate =>
      refine h.stepCore ha fun i input request he ↦ absurd ?_ hcreate
      rw [he, isCreate]
  | auth a =>
    simp only [Api.step] at ha
    split at ha
    · cases ha
    · next hcall =>
      refine h.stepAuth ha fun i email passwordHash he ↦ absurd ?_ hcall
      rw [he, isCall]
  | login i body =>
    obtain ⟨input, -, ha⟩ := Option.bind_eq_some_iff.mp ha
    exact h.stepAuth ha fun _ _ _ he ↦ by cases he
  | refresh i body =>
    obtain ⟨token, -, ha⟩ := Option.bind_eq_some_iff.mp ha
    exact h.stepAuth ha fun _ _ _ he ↦ by cases he
  | logout i body =>
    obtain ⟨token, -, ha⟩ := Option.bind_eq_some_iff.mp ha
    exact h.stepAuth ha fun _ _ _ he ↦ by cases he
  | request j route header =>
    simp only [Api.step] at ha
    split at ha
    · cases ha
    · next hj =>
      cases ha
      refine h.setRequest ?_ (fun _ _ _ he ↦ by split at he <;> cases he) (by simp [hj])
      cases hok : Auth.authenticate (d.jwtVerify s.auth.clock) header with
      | error error => exact trivial
      | ok userId => exact authenticate_genuine hs h hunforged hok
  | lookup j =>
    simp only [Api.step] at ha
    split at ha
    · next route userId hj =>
      cases ha
      exact h.setRequest (lookup_genuine (h.requests j route _ hj)) (fun _ _ _ he ↦ by cases he)
        (by simp [hj])
    · cases ha
  | resume j i events salt =>
    simp only [Api.step] at ha
    split at ha
    · next route userId found hj =>
      have hgenuine := h.requests j route _ hj
      have hadmitted : ∀ {auth work}, route.admission d userId found events salt =
          .ok (auth, work) →
          Guarded d accounts users now (s.setRequest j route (.admitted auth work i)) := by
        intro auth work hwork
        obtain ⟨role, rfl, rfl, hhandle⟩ := admission_eq_ok hwork
        refine h.setRequest (hgenuine role rfl) (fun _ _ _ he ↦ ?_) (by simp [hj])
        cases he
        exact ⟨events, salt, hhandle⟩
      split at ha
      · cases ha
        exact h.setRequest trivial (fun _ _ _ he ↦ by cases he) (by simp [hj])
      · next auth call hwork =>
        refine (hadmitted hwork).stepCore ha fun i' input request he ↦ ⟨j, route, auth, ?_⟩
        cases he
        simp [State.setRequest]
      · next auth call hwork =>
        refine (hadmitted hwork).stepAuth ha fun i' email passwordHash he ↦ ⟨j, route, auth, ?_⟩
        cases he
        simp [State.setRequest]
    · cases ha

/-- Every state of a run without forgery is guarded. -/
theorem guarded (hs : SignsSubject d) (h : Runs d (initial accounts users now) s) :
    Guarded d accounts users now s := by
  refine Relational.StepsUnder.invariant (fun _ _ _ hallow ha hi ↦ Guarded.step hs hi hallow ha) h
    ⟨.refl, .refl, ?_, ?_, ?_, ?_⟩
  · intro j route phase hj
    cases hj
  · intro j route auth work i hj
    cases hj
  · intro i x input request hx
    cases hx
  · intro i x email passwordHash hx
    cases hx

end Banking.Api
