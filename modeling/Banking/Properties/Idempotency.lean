import Banking.Refinement.Answers

/-!
# Idempotency by `transactionId`

What a `transactionId` stands for is decided by the first commit that uses it. Later calls that
ask for the same get the answer again and change nothing; calls that ask for something else are
turned away.
-/

namespace Banking

open Relational (Outcome Table)

variable {d : Deployment} {accounts : Table Account.id} {now : Js.Date} {s s' : SystemState}
variable {input : CreateTransactionInput} {request : Request} {born : Database} {j : Nat}
variable {phase : Relational.Phase Database Lock Supply Reply} {tid : String} {t : Transaction}

/-- Nothing that call `j` has committed changed the database. -/
def ChangesNothing (s : SystemState) (j : Nat) : Prop :=
  ∀ c ∈ s.log, c.session = j → c.after = c.before

/-- The commit belongs to a `create` call for `tid` and moved a balance. -/
def MovesBalance (tid : String) (c : Relational.Commit Database Call) : Prop :=
  (∃ input request, c.call = .create input request ∧ input.transactionId = tid) ∧
    c.after.accounts ≠ c.before.accounts

/-- The caller passes the checks of the account and the role. -/
def PassesChecks (db : Database) (input : CreateTransactionInput) (request : Request) : Prop :=
  ∃ auth account, request.auth = some auth ∧ Sql.liveAccount db input.accountId = some account ∧
    refusal input auth account = none

/-! ### Commits for a used `transactionId` -/

private theorem created_of_commit (h : Runs d (initial accounts now) s)
    {c : Relational.Commit Database Call} (hc : c ∈ s.log) (hcall : c.call = .create input request)
    (hchange : c.after ≠ c.before) :
    c.before.transactions.find? input.transactionId = none ∧
      ∃ row, c.after.transactions.find? input.transactionId = some row ∧ Requested input row := by
  obtain ⟨-, hcommit, -⟩ := (sound h).commits c hc
  rw [hcall] at hcommit
  exact (((Relation.reflGen_iff _ _ _).mp hcommit).resolve_left hchange).created

private theorem call_of_commit (h : Runs d (initial accounts now) s)
    (hj : s.session j = some ⟨.create input request, born, phase⟩)
    {c : Relational.Commit Database Call} (hc : c ∈ s.log) (hsession : c.session = j) :
    c.call = .create input request ∧ Evolves d (fun _ ↦ True) born c.before := by
  obtain ⟨⟨x, hx, hcall, hborn⟩, -⟩ := (sound h).commits c hc
  rw [hsession, hj] at hx
  cases hx
  exact ⟨hcall.symm, hborn⟩

/-- At most one commit of `create` moves a balance on behalf of a `transactionId`. -/
private theorem moved_once (h : Runs d (initial accounts now) s) (tid : String) :
    s.log.Pairwise (fun c c' ↦ ¬ (MovesBalance tid c ∧ MovesBalance tid c')) := by
  apply (sound h).chain.imp_of_mem
  rintro c c' hc hc' he
    ⟨⟨⟨input, request, hcall, rfl⟩, hmove⟩, ⟨⟨input', request', hcall', htid⟩, hmove'⟩⟩
  obtain ⟨-, row, hrow, -⟩ := created_of_commit h hc hcall fun heq ↦ hmove (by rw [heq])
  obtain ⟨hfresh, -⟩ := created_of_commit h hc' hcall' fun heq ↦ hmove' (by rw [heq])
  obtain ⟨status, hfound, -⟩ := Evolves.transaction he hrow
  rw [htid, hfound] at hfresh
  cases hfresh

/-- A call that started when its `transactionId` was used changes nothing. -/
private theorem changesNothing_of_used (h : Runs d (initial accounts now) s)
    (hj : s.session j = some ⟨.create input request, born, phase⟩)
    (hused : born.transactions.find? input.transactionId = some t) : ChangesNothing s j := by
  intro c hc hsession
  obtain ⟨hcall, hlater⟩ := call_of_commit h hj hc hsession
  by_contra hchange
  obtain ⟨hfresh, -⟩ := created_of_commit h hc hcall hchange
  obtain ⟨status, hfound, -⟩ := hlater.transaction hused
  rw [hfound] at hfresh
  cases hfresh

/-! ### Answers for a used `transactionId` -/

/-- A row that was found when a call started is found, but for its status, ever after. -/
private theorem row_later {b : Database} (hlater : Evolves d (fun _ ↦ True) born b)
    (hused : born.transactions.find? tid = some t) : b.transactions.find? tid ≠ none := by
  obtain ⟨status, hfound, -⟩ := hlater.transaction hused
  simp [hfound]

private theorem passesChecks_later {db b : Database} (hlater : Evolves d (fun _ ↦ True) db b)
    (h : PassesChecks db input request) : PassesChecks b input request := by
  obtain ⟨auth, account, hauth, hlive, hallowed⟩ := h
  obtain ⟨hrow, hdeleted⟩ := Sql.liveAccount_eq_some.mp hlive
  obtain ⟨balance, hrow'⟩ := hlater.account hrow
  exact ⟨auth, { account with balance }, hauth, Sql.liveAccount_eq_some.mpr ⟨hrow', hdeleted⟩,
    hallowed⟩

/-- An admissible call for a used `transactionId` ends with the answer for an existing row that it
has read, unless it is cut off. -/
private theorem answer_of_used (h : Runs d (initial accounts now) s)
    {outcome : Outcome Reply}
    (hj : s.session j = some ⟨.create input request, born, .done outcome⟩)
    (hused : born.transactions.find? input.transactionId = some t)
    (hchecks : PassesChecks born input request) :
    outcome = .failed ∨ ∃ b status, Evolves d (fun _ ↦ True) born b ∧
      Evolves d (fun _ ↦ True) b s.db ∧
      b.transactions.find? input.transactionId = some { t with status } ∧
      outcome = .returned (.transaction (answerExisting input { t with status })) := by
  refine ((sound h).done j _ _ _ hj).imp_right fun hends ↦ ?_
  change CreateEnds d input request born outcome (s.commitsOf j) at hends
  generalize hhist : s.commitsOf j = hist at hends
  cases hends with
  | threw later fresh => exact absurd fresh (row_later later hused)
  | completed later fresh => exact absurd fresh (row_later later hused)
  | blocked later fresh => exact absurd fresh (row_later later hused)
  | underfunded later fresh => exact absurd fresh (row_later later hused)
  | unauthenticated hnone =>
    obtain ⟨auth, -, hauth, -⟩ := hchecks
    rw [hnone] at hauth
    cases hauth
  | missing later hnone =>
    obtain ⟨-, account, -, hlive, -⟩ := passesChecks_later later hchecks
    rw [hnone] at hlive
    cases hlive
  | refused later hauth hfound hrefused =>
    obtain ⟨auth', account', hauth', hlive, hallowed⟩ := passesChecks_later later hchecks
    obtain rfl := Option.some.inj (hauth.symm.trans hauth')
    obtain rfl := Option.some.inj (hfound.symm.trans hlive)
    rw [hallowed] at hrefused
    cases hrefused
  | @existing b b' t' later hfound after =>
    obtain ⟨status, hrow, -⟩ := later.transaction hused
    obtain rfl := Option.some.inj (hfound.symm.trans hrow)
    have hmem : (b', b') ∈ s.commitsOf j := by simp [hhist]
    obtain ⟨c, hc, hpair⟩ := List.mem_map.mp hmem
    obtain ⟨-, -, -, hlog⟩ := (sound h).commits c (List.mem_filter.mp hc).1
    rw [(Prod.mk.inj hpair).2] at hlog
    exact ⟨b, status, later, after.trans hlog, hfound, rfl⟩

private theorem same_of_success (h : Runs d (initial accounts now) s)
    {result : TransactionResult} (ht : s.db.transactions.find? input.transactionId = some t)
    (hj : s.session j =
      some ⟨.create input request, born, .done (.returned (.transaction result))⟩)
    (hcode : result.statusCode = 200 ∨ result.statusCode = 201) : isSameRequest input t := by
  have hends := ((sound h).done j _ _ _ hj).resolve_left (by simp)
  change CreateEnds d input request born (.returned (.transaction result)) (s.commitsOf j) at hends
  generalize hhist : s.commitsOf j = hist at hends
  have hlog : ∀ pair ∈ hist, Evolves d (fun _ ↦ True) pair.2 s.db := by
    intro pair hpair
    rw [← hhist] at hpair
    obtain ⟨c, hc, rfl⟩ := List.mem_map.mp hpair
    exact ((sound h).commits c (List.mem_filter.mp hc).1).2.2.2
  cases hends with
  | completed later fresh inserted found =>
    obtain ⟨status, hrow, -⟩ := (hlog _ List.mem_cons_self).transaction found
    obtain rfl := Option.some.inj (ht.symm.trans hrow)
    obtain ⟨id, authorizedAt, createdAt, rfl⟩ := inserted
    exact ⟨rfl, rfl, rfl⟩
  | @existing b b' t' later found after =>
    obtain ⟨status, hrow, -⟩ := Evolves.transaction (after.trans (hlog _ List.mem_cons_self)) found
    obtain rfl := Option.some.inj (ht.symm.trans hrow)
    by_contra hother
    have hconflict : ¬ isSameRequest input t' := hother
    simp [answerExisting, hconflict, TransactionResult.statusCode] at hcode
  | refused _ _ _ hrefused =>
    obtain ⟨code, message, rfl, rfl | rfl⟩ := refusal_eq_some hrefused <;>
      simp [TransactionResult.statusCode] at hcode
  | blocked => simp [TransactionResult.statusCode] at hcode
  | unauthenticated => simp [TransactionResult.statusCode] at hcode
  | missing => simp [TransactionResult.statusCode] at hcode
  | underfunded => simp [TransactionResult.statusCode] at hcode

/-- A call that asks for something else than the row of its `transactionId` changes nothing. -/
private theorem changesNothing_of_conflict (h : Runs d (initial accounts now) s)
    (hj : s.session j = some ⟨.create input request, born, phase⟩)
    (ht : s.db.transactions.find? input.transactionId = some t)
    (hother : ¬ isSameRequest input t) : ChangesNothing s j := by
  intro c hc hsession
  obtain ⟨hcall, -⟩ := call_of_commit h hj hc hsession
  by_contra hchange
  obtain ⟨-, row, hrow, hreq⟩ := created_of_commit h hc hcall hchange
  obtain ⟨status, hrow', -⟩ := Evolves.transaction ((sound h).commits c hc).2.2.2 hrow
  obtain rfl := Option.some.inj (ht.symm.trans hrow')
  exact hother ⟨hreq.accountId.symm, hreq.type.symm, hreq.amount.symm⟩

/-! ### Calls that start later -/

/-- Call `j` is a `create` call that starts after `s`, by a caller who passes the checks. -/
structure LaterCall (d : Deployment) (s s' : SystemState) (j : Nat)
    (input : CreateTransactionInput) (request : Request) (born : Database)
    (phase : Relational.Phase Database Lock Supply Reply) : Prop where
  runs : Runs d s s'
  unstarted : s.session j = none
  started : s'.session j = some ⟨.create input request, born, phase⟩
  checks : PassesChecks s.db input request

/-- A later call for a used `transactionId` changes nothing, and ends with the answer for the row
at some moment since, unless it is cut off. -/
private theorem LaterCall.answer (h : Runs d (initial accounts now) s)
    (hj : LaterCall d s s' j input request born phase)
    (ht : s.db.transactions.find? input.transactionId = some t) :
    ChangesNothing s' j ∧ ∀ outcome, phase = .done outcome → outcome = .failed ∨
      ∃ b status, Evolves d (fun _ ↦ True) s.db b ∧ Evolves d (fun _ ↦ True) b s'.db ∧
        b.transactions.find? input.transactionId = some { t with status } ∧
        outcome = .returned (.transaction (answerExisting input { t with status })) := by
  have hs' : Runs d (initial accounts now) s' := h.trans hj.runs
  have hborn : Evolves d (fun _ ↦ True) s.db born :=
    evolves_born h hj.runs hj.unstarted hj.started
  obtain ⟨status₀, hused, -⟩ := hborn.transaction ht
  refine ⟨changesNothing_of_used hs' hj.started hused, ?_⟩
  rintro outcome rfl
  apply (answer_of_used hs' hj.started hused (passesChecks_later hborn hj.checks)).imp_right
  rintro ⟨b, status, hb, hb', hfound, houtcome⟩
  exact ⟨b, status, hborn.trans hb, hb', hfound, houtcome⟩

/-- The two answers are about the same transaction. -/
structure SameTransaction (data data' : TransactionResponse) : Prop where
  id : data'.id = data.id
  transactionId : data'.transactionId = data.transactionId
  accountId : data'.accountId = data.accountId
  type : data'.type = data.type
  amount : data'.amount = data.amount
  createdAt : data'.createdAt = data.createdAt

/-- A compensated transaction is blocked from then on. -/
private theorem blocked_later {b : Database}
    (hlater : Evolves d (fun _ ↦ True) s.db b)
    (hblocked : ∃ t, (s.db.record tid).transaction = some t ∧ t.status = .BLOCKED)
    (ht : b.transactions.find? tid = some t) : t.status = .BLOCKED := by
  obtain ⟨t', ht', hstatus⟩ := hblocked
  have hkept := hlater.transaction_settled ht' (by simp [hstatus])
  obtain rfl := Option.some.inj (ht.symm.trans hkept)
  exact hstatus

/-- A repeated call after a 201 is answered with 200, or with 422 once it is compensated. -/
private theorem replay_answer (h : Runs d (initial accounts now) s) {i : Nat}
    {request₀ : Request} {born₀ : Database} {input₀ : CreateTransactionInput}
    {data : TransactionResponse}
    (hi : s.session i = some ⟨.create input₀ request₀, born₀,
      .done (.returned (.transaction (.success 201 data)))⟩)
    (htid : input₀.transactionId = input.transactionId)
    (hsame : input.accountId = input₀.accountId ∧ input.type = input₀.type ∧
      input.amountMinor = input₀.amountMinor)
    (hj : LaterCall d s s' j input request born phase) :
    ChangesNothing s' j ∧ ∀ outcome, phase = .done outcome → outcome = .failed ∨
      (∃ data', outcome = .returned (.transaction (.success 200 data')) ∧
        SameTransaction data data' ∧
        s.db.eventCount input.transactionId "TransactionCompensated" = 0) ∨
      (outcome = .returned (.transaction (.failure 422 "Invalid transaction")) ∧
        0 < s'.db.eventCount input.transactionId "TransactionCompensated") := by
  obtain ⟨c, hc, -, row, status₀, hpassed, hrow⟩ := passed_of_answer h hi
  obtain ⟨hmem, e, he, htype, hetid⟩ := mem_of_passed h hrow
  have hrow₀ := hpassed.requested
  have ht : s.db.transactions.find? input.transactionId = some { row with status := status₀ } := by
    rw [← htid, hrow₀.transactionId]
    exact Table.find?_of_mem hmem
  replace hetid : e.transactionId = input.transactionId :=
    hetid.trans (hrow₀.transactionId.symm.trans htid)
  have hcompleted : 0 < s.db.eventCount input.transactionId "TransactionCompleted" :=
    List.countP_pos_iff.mpr ⟨e, Table.mem_of_find? he, by simp [htype, hetid]⟩
  refine (LaterCall.answer h hj ht).imp_right fun hanswered outcome hout ↦ ?_
  apply (hanswered outcome hout).imp_right
  rintro ⟨b, status, hb, hb', hfound, rfl⟩
  have hreq : isSameRequest input { row with status := status } :=
    ⟨hrow₀.accountId.symm.trans hsame.1.symm, hrow₀.type.symm.trans hsame.2.1.symm,
      hrow₀.amount.symm.trans hsame.2.2.symm⟩
  have hstage := ((consistent h).evolves hb).stage input.transactionId
  by_cases hblocked : status = .BLOCKED
  · right
    have hcount : 0 < b.eventCount input.transactionId "TransactionCompensated" := by
      rw [Database.eventCount_eq]
      apply hstage.compensated_of_blocked hfound hblocked
      rw [← Database.eventCount_eq]
      exact hb.eventCount_pos hcompleted
    exact ⟨by rw [answerExisting_blocked hreq hblocked], hb'.eventCount_pos hcount⟩
  · left
    refine ⟨_, by rw [answerExisting_live hreq hblocked], ?_, ?_⟩
    · rw [hpassed.answer]
      exact ⟨rfl, rfl, rfl, rfl, rfl, rfl⟩
    · by_contra hcompensated
      rw [Database.eventCount_eq] at hcompensated
      exact hblocked (blocked_later hb (((consistent h).stage _).blocked_of_compensated
        (Nat.pos_of_ne_zero hcompensated)) hfound)

/-- A repeated call after a fraud block is answered with 422. -/
private theorem blocked_answer (h : Runs d (initial accounts now) s)
    (ht : s.db.transactions.find? input.transactionId = some t)
    (hblocked : 0 < s.db.eventCount input.transactionId "TransactionBlocked")
    (hsame : isSameRequest input t) (hj : LaterCall d s s' j input request born phase) :
    ChangesNothing s' j ∧ ∀ outcome, phase = .done outcome → outcome = .failed ∨
      outcome = .returned (.transaction (.failure 422 "Invalid transaction")) := by
  refine (LaterCall.answer h hj ht).imp_right fun hanswered outcome hout ↦ ?_
  apply (hanswered outcome hout).imp_right
  rintro ⟨b, status, hb, -, hfound, rfl⟩
  rw [Database.eventCount_eq] at hblocked
  have hstatus : status = .BLOCKED := blocked_later hb
    (((consistent h).stage _).blocked_of_blockedEvent hblocked) hfound
  have hreq : isSameRequest input { t with status } := hsame
  rw [answerExisting_blocked hreq hstatus]

/-! ### Idempotency -/

/-- What a `transactionId` stands for is decided once. -/
structure Idempotent (d : Deployment) (s : SystemState) (tid : String) : Prop where
  /-- At most one row has the `transactionId`. -/
  one_row : s.db.transactions.rows.countP (fun t ↦ decide (t.transactionId = tid)) ≤ 1
  /-- Its account, type and amount never change. -/
  kept : ∀ s' t, Runs d s s' → s.db.transactions.find? tid = some t →
    ∃ t', s'.db.transactions.find? tid = some t' ∧ t'.accountId = t.accountId ∧
      t'.type = t.type ∧ t'.amount = t.amount
  /-- `create` moves a balance on its behalf at most once. -/
  moved_once : s.log.Pairwise (fun c c' ↦ ¬ (MovesBalance tid c ∧ MovesBalance tid c'))
  /-- A used `transactionId` has one completed or blocked event. -/
  decided_once : (s.db.transactions.find? tid).isSome = true →
    s.db.eventCount tid "TransactionCompleted" + s.db.eventCount tid "TransactionBlocked" = 1
  /-- After a 201, later calls for the same change nothing. They return 200 with the same
  transaction if it has not been compensated when they start, or 422 if it is compensated. -/
  replayed : ∀ i input request born data, s.session i = some ⟨.create input request, born,
      .done (.returned (.transaction (.success 201 data)))⟩ → input.transactionId = tid →
    ∀ s' j input' request' born' phase, LaterCall d s s' j input' request' born' phase →
      input'.transactionId = tid → input'.accountId = input.accountId ∧
        input'.type = input.type ∧ input'.amountMinor = input.amountMinor →
      ChangesNothing s' j ∧ ∀ outcome, phase = .done outcome → outcome = .failed ∨
        (∃ data', outcome = .returned (.transaction (.success 200 data')) ∧
          SameTransaction data data' ∧ s.db.eventCount tid "TransactionCompensated" = 0) ∨
        (outcome = .returned (.transaction (.failure 422 "Invalid transaction")) ∧
          0 < s'.db.eventCount tid "TransactionCompensated")
  /-- After a fraud block, later calls for the same change nothing and return 422. -/
  blocked : 0 < s.db.eventCount tid "TransactionBlocked" →
    ∀ t s' j input' request' born' phase, s.db.transactions.find? tid = some t →
      LaterCall d s s' j input' request' born' phase → input'.transactionId = tid →
      isSameRequest input' t →
      ChangesNothing s' j ∧ ∀ outcome, phase = .done outcome → outcome = .failed ∨
        outcome = .returned (.transaction (.failure 422 "Invalid transaction"))
  /-- Calls for something else than the row change nothing and return neither 200 nor 201. -/
  conflict : ∀ t j input' request' born' phase, s.db.transactions.find? tid = some t →
    s.session j = some ⟨.create input' request', born', phase⟩ → input'.transactionId = tid →
    ¬ isSameRequest input' t →
    ChangesNothing s j ∧ ∀ result, phase = .done (.returned (.transaction result)) →
      result.statusCode ≠ 200 ∧ result.statusCode ≠ 201

/-- In every reachable state every `transactionId` is idempotent. -/
theorem transactionId_idempotent (h : Runs d (initial accounts now) s) (tid : String) :
    Idempotent d s tid := by
  constructor
  case one_row => exact Table.countP_key_le_one _ _
  case kept =>
    intro s' t hs ht
    obtain ⟨status, ht', -⟩ := (evolves h hs).transaction ht
    exact ⟨_, ht', rfl, rfl, rfl⟩
  case moved_once => exact moved_once h tid
  case decided_once =>
    intro hused
    have hcount := ((consistent h).stage tid).count_decided
    rw [← Database.eventCount_eq, ← Database.eventCount_eq] at hcount
    exact hcount.trans (if_pos hused)
  case replayed =>
    rintro i input request born data hi rfl s' j input' request' born' phase hj htid hsame
    exact htid ▸ replay_answer h hi htid.symm hsame hj
  case blocked =>
    rintro hblocked t s' j input' request' born' phase ht hj rfl hsame
    exact blocked_answer h ht hblocked hsame hj
  case conflict =>
    rintro t j input' request' born' phase ht hj rfl hother
    refine ⟨changesNothing_of_conflict h hj ht hother, ?_⟩
    rintro result rfl
    rw [← not_or]
    exact fun hcode ↦ hother (same_of_success h ht hj hcode)

/-- The sample debit, requested twice, is idempotent: it has one row and one event. -/
theorem transactionId_idempotent_debit : ∃ s,
    Sample.after (Sample.debit ++ [.start 1 (.create Sample.input Sample.request)] ++
      Sample.execute 1 5 1) = some s ∧
      s.db.transactions.rows.length = 1 ∧ s.db.outboxEvents.rows.length = 1 ∧
        Idempotent Sample.deployment s "txn-1" := by
  have hrun : (Sample.after (Sample.debit ++ [.start 1 (.create Sample.input Sample.request)] ++
      Sample.execute 1 5 1)).map (fun s ↦
        (s.db.transactions.rows.length, s.db.outboxEvents.rows.length)) = some (1, 1) := by
    decide +kernel
  obtain ⟨s, hs, hlength⟩ := Option.map_eq_some_iff.mp hrun
  obtain ⟨hrows, hevents⟩ := Prod.mk.inj hlength
  exact ⟨s, hs, hrows, hevents, transactionId_idempotent (Relational.runs_of_run hs) "txn-1"⟩

end Banking
