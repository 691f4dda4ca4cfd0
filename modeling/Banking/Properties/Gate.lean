import Banking.Properties.RefreshTokens
import Banking.Refinement.Api

/-!
# Everything goes back to a password

Whatever arrives at the gate and however it interleaves with everything else, a transaction is there
only because a user who may use the service, and whose password has been presented in a login, asked
for it in the body of an admitted request: a debit the owner of the account, a credit an
administrator. A user who was not there at the beginning is a customer, whom an administrator of the
beginning has had registered by an admitted request with the user's email and password; concurrent
registrations never give two users one email.
-/

namespace Banking.Api

open Auth (Vouched)
open Relational (Table)

/-- An admitted request with this `request.auth` has the transaction in its body, and a commit of
the call that its handler made added the transaction. -/
def Posted (s : State) (auth : Banking.Auth) (t : Transaction) : Prop :=
  ∃ j body ip forwardedFor input, ∃ c ∈ s.core.log,
    s.request j = some (.createTransaction body ip forwardedFor,
      .admitted auth (.core (.create input ⟨some auth, ip, forwardedFor⟩)) c.session) ∧
    c.call = .create input ⟨some auth, ip, forwardedFor⟩ ∧
    createTransactionSchema body = some input ∧ Requested input t ∧
    c.before.transactions.find? t.transactionId = none ∧
    c.after.transactions.find? t.transactionId ≠ none

/-- The transaction was asked for by the user, who was entitled to it. -/
structure AskedBy (d : Deployment) (s : State) (t : Transaction) (user : Auth.User) : Prop where
  found : s.auth.db.users.find? user.id = some user
  active : user.status = .ACTIVE
  present : user.deletedAt = none
  vouched : Vouched d.auth s.auth user
  posted : Posted s ⟨user.id, user.role⟩ t
  account : ∃ account, s.core.db.accounts.find? t.accountId = some account ∧
    (t.type = .DEBIT → account.userId = user.id)
  credit : t.type = .CREDIT → user.role = .ADMIN

/-- An admitted request with this `request.auth` has the user's email in its body, and a password
whose hash is the user's; a commit of the call that its handler made added the user. -/
def Enrolled (d : Deployment) (s : State) (auth : Banking.Auth) (user : Auth.User) : Prop :=
  ∃ j body input salt, ∃ c ∈ s.auth.log,
    s.request j = some (.createUser body,
      .admitted auth (.auth (.createUser user.email user.passwordHash)) c.session) ∧
    c.call = .createUser user.email user.passwordHash ∧
    Auth.createUserSchema body = some input ∧ input.email = user.email ∧
    d.hash salt input.password = some user.passwordHash ∧
    c.before.users.find? user.id = none ∧ c.after.users.find? user.id = some user

/-- The user was registered as a customer, at the request of an administrator of the beginning, who
has logged in. -/
structure Registered (d : Deployment) (users : Table Auth.User.id) (s : State)
    (user : Auth.User) : Prop where
  customer : user.role = .CUSTOMER
  registrar : ∃ admin, users.find? admin.id = some admin ∧ admin.role = .ADMIN ∧
    admin.status = .ACTIVE ∧ admin.deletedAt = none ∧ Vouched d.auth s.auth admin ∧
    Enrolled d s ⟨admin.id, .ADMIN⟩ user

/-- What holds of the users in a state. -/
structure Registry (d : Deployment) (users : Table Auth.User.id) (s : State) : Prop where
  emails : Auth.UniqueEmails s.auth.db.users
  users : ∀ user, s.auth.db.users.find? user.id = some user →
    users.find? user.id = some user ∨ Registered d users s user

variable {d : Deployment} {accounts : Table Account.id} {users : Table Auth.User.id}
  {now : Js.Date} {s : State}

/-! ### Transactions -/

/-- Whom the engine does not refuse. -/
private theorem refusal_eq_none {input : CreateTransactionInput} {auth : Banking.Auth}
    {account : Account} (h : refusal input auth account = none) :
    (input.type = .DEBIT → auth.userId = account.userId) ∧
      (input.type = .CREDIT → auth.role = .ADMIN) := by
  unfold refusal at h
  split at h
  · cases h
  · split at h
    · cases h
    · next howner =>
      split at h
      · split at h <;> cases h
      · next hadmin =>
        simp only [not_and, not_not] at howner hadmin
        exact ⟨howner, hadmin⟩

/-- A commit adds a transaction for a request that the engine accepts. -/
private theorem accepted_of_new {d : Banking.Deployment} {call : Call} {own : Lock → Prop}
    {b a : Database} (hc : Commits d call own b a) {tid : String} {t : Transaction}
    (hnew : b.transactions.find? tid = none) (ht : a.transactions.find? tid = some t) :
    ∃ input request auth account, call = .create input request ∧ request.auth = some auth ∧
      refusal input auth account = none ∧ b.accounts.find? input.accountId = some account ∧
      Requested input t := by
  have hmodified : ∀ tid' status, (b.setStatus tid' status).transactions.find? tid ≠ some t := by
    intro tid' status hfound
    rw [Database.transactions_setStatus, Table.find?_modify] at hfound
    split at hfound
    · next he =>
      rw [← he, hnew] at hfound
      cases hfound
    · rw [hnew] at hfound
      cases hfound
  have hsame : b.transactions.find? tid ≠ some t := by simp [hnew]
  cases hc with
  | @complete input request _ _ account row event h hevent hunsent =>
    obtain ⟨id, authorizedAt, createdAt, rfl⟩ := h.inserted
    obtain ⟨auth, hauth, hallowed⟩ := h.allowed
    rcases Table.eq_or_of_find?_insert ht with rfl | hold
    · exact ⟨input, request, auth, account, rfl, hauth, hallowed, h.found, rfl, rfl, rfl, rfl⟩
    · exact absurd hold hsame
  | @block input request _ _ account row event reason h hevent hunsent =>
    obtain ⟨id, authorizedAt, createdAt, rfl⟩ := h.inserted
    obtain ⟨auth, hauth, hallowed⟩ := h.allowed
    rcases Table.eq_or_of_find?_insert ht with rfl | hold
    · exact ⟨input, request, auth, account, rfl, hauth, hallowed, h.found, rfl, rfl, rfl, rfl⟩
    · exact absurd hold hsame
  | post => exact absurd ht hsame
  | skip => exact absurd ht hsame
  | finalize => exact absurd ht (hmodified _ _)
  | pass => exact absurd ht hsame
  | compensate => exact absurd ht (hmodified _ _)

/-- Every transaction of a reachable state was accepted when it was requested. -/
private theorem exists_request {d : Banking.Deployment} {s : SystemState}
    (h : Banking.Runs d (Banking.initial accounts now) s) {tid : String} {t : Transaction}
    (ht : s.db.transactions.find? tid = some t) :
    ∃ c ∈ s.log, c.before.transactions.find? tid = none ∧ c.after.transactions.find? tid ≠ none ∧
      ∃ x input request auth account, s.session c.session = some x ∧ x.call = c.call ∧
        c.call = .create input request ∧ request.auth = some auth ∧
        refusal input auth account = none ∧ Requested input t ∧
        ∃ balance, s.db.accounts.find? t.accountId = some { account with balance } := by
  obtain ⟨c, hc, hbefore, hafter⟩ := Relational.exists_commit
    (P := fun db : Database ↦ db.transactions.find? tid ≠ none) h
    (by simp [Banking.initial, Relational.State.initial, Database.opening]) (by simp [ht])
  have hnew : c.before.transactions.find? tid = none := not_not.mp hbefore
  obtain ⟨row, hrow⟩ := Option.ne_none_iff_exists'.mp hafter
  obtain ⟨⟨x, hx, hcall, -⟩, hcommit, -, hlater⟩ := (sound h).commits c hc
  have hchange : c.after ≠ c.before := by
    intro he
    rw [he, hnew] at hrow
    cases hrow
  have hcommit := ((Relation.reflGen_iff _ _ _).mp hcommit).resolve_left hchange
  obtain ⟨input, request, auth, account, hcreate, hauth, hallowed, haccount, hrequested⟩ :=
    accepted_of_new hcommit hnew hrow
  obtain ⟨status, hrow', -⟩ := Evolves.transaction hlater hrow
  obtain rfl := Option.some.inj (ht.symm.trans hrow')
  obtain ⟨balance, hbalance⟩ := Evolves.account
    ((Relational.Evolves.single hcommit).trans hlater) haccount
  exact ⟨c, hc, hnew, hafter, x, input, request, auth, account, hx, hcall, hcreate, hauth, hallowed,
    hrequested.withStatus status, balance, hrequested.accountId ▸ hbalance⟩

/-- In every state of a run without forgery, every transaction was asked for by a user who has
logged in and was entitled to it. -/
theorem transactions_vouched (hs : SignsSubject d) (h : Runs d (initial accounts users now) s)
    {t : Transaction} (ht : s.core.db.transactions.find? t.transactionId = some t) :
    ∃ user, AskedBy d s t user := by
  have hguarded := guarded hs h
  obtain ⟨c, hc, hbefore, hafter, x, input, request, auth, account, hx, hcall, hcreate, hauth,
    hallowed, hrequested, balance, haccount⟩ := exists_request hguarded.core ht
  obtain ⟨j, route, auth', hj⟩ :=
    hguarded.creates c.session x input request hx (hcall.trans hcreate)
  obtain ⟨events, salt, hhandle⟩ := hguarded.handled j route auth' _ _ hj
  obtain ⟨body, ip, forwardedFor, rfl, hbody, rfl⟩ := handle_eq_create hhandle
  obtain rfl : auth' = auth := Option.some.inj hauth
  obtain ⟨user, huser, hactive, hpresent, hrole, hvouched⟩ := hguarded.requests j _ _ hj
  obtain ⟨howner, hadmin⟩ := refusal_eq_none hallowed
  have hid : user.id = auth'.userId := Table.key_of_find? huser
  have hauth : (⟨user.id, user.role⟩ : Banking.Auth) = auth' := by rw [hid, hrole]
  exact ⟨user, {
    found := hid ▸ huser
    active := hactive
    present := hpresent
    vouched := hvouched
    posted := hauth ▸ ⟨j, body, ip, forwardedFor, input, c, hc, hj, hcreate, hbody, hrequested,
      hbefore, hafter⟩
    account := ⟨_, haccount, fun hdebit ↦
      (howner (hrequested.type.trans hdebit)).symm.trans hid.symm⟩
    credit := fun hcredit ↦ hrole.trans (hadmin (hrequested.type.trans hcredit)) }⟩

/-! ### Users -/

/-- The administrators of a state were there at the beginning. -/
private theorem admin_initial (h : Auth.Runs d.auth (Auth.initial users now) s.auth)
    {user : Auth.User} (hu : s.auth.db.users.find? user.id = some user)
    (hadmin : user.role = .ADMIN) : users.find? user.id = some user := by
  rcases Auth.exists_registration h hu with hfirst | ⟨hcustomer, -⟩
  · exact hfirst
  · rw [hadmin] at hcustomer
    cases hcustomer

/-- In every state of a run without forgery all new users are customers whom an administrator had
registered, and emails are unique. -/
theorem users_registered (hs : SignsSubject d) (hemails : Auth.UniqueEmails users)
    (h : Runs d (initial accounts users now) s) : Registry d users s where
  emails := Auth.emails_unique (guarded hs h).auth hemails
  users := by
    intro user hu
    have hguarded := guarded hs h
    rcases Auth.exists_registration hguarded.auth hu with hfirst |
      ⟨hcustomer, c, hc, hbefore, hafter, hcreate, x, hx, hcall⟩
    · exact .inl hfirst
    obtain ⟨j, route, auth, hj⟩ := hguarded.registers c.session x _ _ hx (hcall.trans hcreate)
    obtain ⟨events, salt, hhandle⟩ := hguarded.handled j route auth _ _ hj
    obtain ⟨hrole, body, input, rfl, hbody, hemail, hhash⟩ := handle_eq_createUser hhandle
    obtain ⟨admin, hfound, hactive, hpresent, hsame, hvouched⟩ := hguarded.requests j _ _ hj
    have hadmin : admin.role = .ADMIN := hsame.trans hrole
    have hid : admin.id = auth.userId := Table.key_of_find? hfound
    have hauth : (⟨admin.id, .ADMIN⟩ : Banking.Auth) = auth := by rw [hid, ← hrole]
    exact .inr ⟨hcustomer, admin, admin_initial hguarded.auth (hid ▸ hfound) hadmin, hadmin,
      hactive, hpresent, hvouched, hauth ▸ ⟨j, body, input, salt, c, hc, hj, hcreate, hbody, hemail,
        hhash, hbefore, hafter⟩⟩

/-! ### Runs -/

namespace Sample

/-- The small deployments, with tokens that name their users and passwords in clear. -/
def deployment : Deployment where
  core := Banking.Sample.deployment
  auth := Auth.Sample.deployment
  jwtVerify _ token := .verified ⟨some token, some (.str "CUSTOMER")⟩
  hash _ password := some password

/-- A customer and an administrator. -/
def people : Table Auth.User.id :=
  ⟨[⟨"user-1", "user@example.com", "secret", .CUSTOMER, .ACTIVE, none⟩,
    ⟨"admin-1", "admin@example.com", "secret", .ADMIN, .ACTIVE, none⟩], by decide⟩

theorem uniqueEmails : Auth.UniqueEmails people := by
  intro user huser other hother he
  simp only [people, List.mem_cons, List.not_mem_nil, or_false] at huser hother
  rcases huser with rfl | rfl <;> rcases hother with rfl | rfl
  · rfl
  · exact absurd he (by decide)
  · exact absurd he (by decide)
  · rfl

/-- Nothing has happened to the account and the users. -/
def start : State := initial Banking.Sample.accounts people 1000

/-- Process 0 logs in. -/
def login (email : String) : List Action :=
  .login 0 (some (.obj [("email", .str email), ("password", .str "secret")])) ::
    (Auth.Sample.execute 0 7 "token-1").map .auth

theorem signsSubject : SignsSubject deployment := by
  intro userId role jti iat token now payload hsign hverified
  cases hsign
  cases hverified
  rfl

/-- The owner of the account logs in and debits it. -/
def debit : List Action :=
  login "User@example.com" ++
  [.request 0 (.createTransaction (some (.obj [("transactionId", .str "txn-1"),
      ("accountId", .str Banking.Sample.accountId), ("type", .str "DEBIT"),
      ("amountMinor", .str "10"), ("deviceFingerprint", .str "device-1")])) none none)
      (some "Bearer user-1"),
    .lookup 0, .resume 0 0 .empty ""] ++ (Banking.Sample.execute 0 13 0).map .core

/-- The body of a registration. -/
def registration (email : String) : Option Json :=
  some (.obj [("name", .str "User"), ("email", .str email), ("password", .str "Passw0rd-bbb")])

/-- The administrator logs in. Two requests to register one email pass the gate before either
inserts; the first becomes `user-2`. -/
def register : List Action :=
  login "admin@example.com" ++
  [.request 0 (.createUser (registration "B@x.io")) (some "Bearer admin-1"),
    .request 1 (.createUser (registration "b@x.io")) (some "Bearer admin-1"),
    .lookup 0, .lookup 1, .resume 0 1 .empty "", .resume 1 2 .empty "",
    .auth (.exec 1 ⟨"user-2", ""⟩), .auth (.exec 1 ⟨"", ""⟩), .auth (.exec 1 ⟨"", ""⟩),
    .auth (.exec 2 ⟨"user-3", ""⟩), .auth (.exec 2 ⟨"", ""⟩)]

/-- The token at the gate is the one that process 0 has returned. -/
def presents (s : State) : Action → Bool
  | .request _ _ header =>
    match Auth.bearerToken header, s.auth.session 0 with
    | some token, some ⟨_, _, .done (.returned (.tokens pair))⟩ => pair.accessToken = token
    | _, _ => false
  | _ => true

/-- A token that a process has returned is not forged. -/
theorem unforged_of_presents {s : State} {a : Action} (h : presents s a = true) :
    Unforged deployment s a := by
  cases a with
  | request j route header =>
    intro token payload htoken _
    simp only [presents, htoken] at h
    split at h
    · next token' call born pair he hi =>
      cases he
      exact ⟨0, call, born, pair, hi, of_decide_eq_true h⟩
    · cases h
  | _ => exact trivial

end Sample

/-- An executed list of actions in which only returned tokens are presented. -/
theorem Sample.runs {actions : List Action} {s : State} (h : Relational.executeUnder
    (step Sample.deployment) Sample.presents Sample.start actions = some s) :
    Runs Sample.deployment (initial Banking.Sample.accounts Sample.people 1000) s :=
  Relation.ReflTransGen.mono (fun _ _ ⟨a, hcheck, ha⟩ ↦
    ⟨a, Sample.unforged_of_presents hcheck, ha⟩) _ _ (Relational.stepsUnder_of_execute h)

/-- The debit of an owner who has logged in. -/
theorem transactions_vouched_debit : ∃ s t user, Relational.executeUnder (step Sample.deployment)
    Sample.presents Sample.start Sample.debit = some s ∧
      s.core.db.transactions.find? "txn-1" = some t ∧ t.status = .COMPLETED ∧
      AskedBy Sample.deployment s t user := by
  have hrun : ((Relational.executeUnder (step Sample.deployment) Sample.presents Sample.start
      Sample.debit).bind fun s ↦ s.core.db.transactions.find? "txn-1").map Transaction.status =
      some .COMPLETED := by
    decide +kernel
  obtain ⟨t, ht, hstatus⟩ := Option.map_eq_some_iff.mp hrun
  obtain ⟨s, hs, ht⟩ := Option.bind_eq_some_iff.mp ht
  have hid : t.transactionId = "txn-1" := Table.key_of_find? ht
  obtain ⟨user, hasked⟩ := transactions_vouched Sample.signsSubject (Sample.runs hs) (hid ▸ ht)
  exact ⟨s, t, user, hs, ht, hstatus, hasked⟩

/-- Of two concurrent registrations with one email the first succeeds. -/
theorem users_registered_twice : ∃ s user, Relational.executeUnder (step Sample.deployment)
    Sample.presents Sample.start Sample.register = some s ∧
      s.auth.db.users.find? "user-2" = some user ∧ s.auth.db.users.rows.length = 3 ∧
      Registered Sample.deployment Sample.people s user := by
  have hrun : (Relational.executeUnder (step Sample.deployment) Sample.presents Sample.start
      Sample.register).map (fun s ↦ ((s.auth.db.users.find? "user-2").isSome,
        s.auth.db.users.rows.length)) = some (true, 3) := by
    decide +kernel
  obtain ⟨s, hs, hended⟩ := Option.map_eq_some_iff.mp hrun
  obtain ⟨hsome, hlength⟩ := Prod.mk.inj hended
  obtain ⟨user, huser⟩ := Option.isSome_iff_exists.mp hsome
  have hid : user.id = "user-2" := Table.key_of_find? huser
  refine ⟨s, user, hs, huser, hlength, ((users_registered Sample.signsSubject
    Sample.uniqueEmails (Sample.runs hs)).users user (hid ▸ huser)).resolve_left fun hfirst ↦ ?_⟩
  have hnone : Sample.people.find? "user-2" = none := by decide
  rw [hid, hnone] at hfirst
  cases hfirst

end Banking.Api
