import Banking.Atomic.Balance
import Banking.Refinement.Answers
import Banking.Relational.Atomicity

/-!
# Who moves money

Every change of a balance is a debit that the account's owner asked for, a credit that an
administrator asked for, or the reversal of one of these by the timeout scan. What a `create` call
has changed can be read off its answer.
-/

namespace Banking

open Relational (Outcome Table)

/-! ### What a request may do -/

/-- The caller may move money on the account, and a debit leaves something in it. -/
structure Entitled (input : CreateTransactionInput) (request : Request) (account : Account) :
    Prop where
  live : account.deletedAt = none
  active : account.status ≠ .INACTIVE
  owner : input.type = .DEBIT → ∃ auth, request.auth = some auth ∧ auth.userId = account.userId
  admin : input.type = .CREDIT → ∃ auth, request.auth = some auth ∧ auth.role = .ADMIN
  funded : input.type = .DEBIT → input.amountMinor < account.balance

/-- The request moves money: it writes one balance, adds one completed transaction and one
`TransactionCompleted` event, and changes nothing else. -/
structure Moves (input : CreateTransactionInput) (request : Request) (account : Account)
    (row : Transaction) (db db' : Database) : Prop where
  found : db.accounts.find? input.accountId = some account
  entitled : Entitled input request account
  fresh : db.transactions.find? input.transactionId = none
  requested : Requested input row
  status : row.status = .COMPLETED
  change : ∃ event : OutboxEvent, db.outboxEvents.find? event.id = none ∧
    event.eventType = "TransactionCompleted" ∧ event.transactionId = input.transactionId ∧
    db' = ((db.addTransaction row).setBalance input.accountId
      (account.balance + row.signedAmount)).addOutboxEvent event

/-- The request is blocked: it adds one blocked transaction and one `TransactionBlocked` event,
and changes nothing else. -/
def Blocks (input : CreateTransactionInput) (db db' : Database) : Prop :=
  db.transactions.find? input.transactionId = none ∧
    ∃ (row : Transaction) (event : OutboxEvent), Requested input row ∧ row.status = .BLOCKED ∧
      db.outboxEvents.find? event.id = none ∧ event.eventType = "TransactionBlocked" ∧
      event.transactionId = input.transactionId ∧
      db' = (db.addTransaction row).addOutboxEvent event

/-- A step that changes the balance of an account is the commit of one of three kinds. -/
inductive Movement (s s' : SystemState) (id : String) (account account' : Account) : Prop
  /-- A debit of less than the balance, requested by the owner. -/
  | debit {i input request row}
      (hlog : s'.log = s.log ++ [⟨i, .create input request, s.db, s'.db⟩])
      (hmoves : Moves input request account row s.db s'.db) (hid : input.accountId = id)
      (htype : input.type = .DEBIT)
      (hbalance : account'.balance = account.balance - input.amountMinor)
  /-- A credit, requested by an administrator. -/
  | credit {i input request row}
      (hlog : s'.log = s.log ++ [⟨i, .create input request, s.db, s'.db⟩])
      (hmoves : Moves input request account row s.db s'.db) (hid : input.accountId = id)
      (htype : input.type = .CREDIT)
      (hbalance : account'.balance = account.balance + input.amountMinor)
  /-- The reversal of a completed transaction that an earlier request moved money with. -/
  | reversal {i t c input request before row}
      (hlog : s'.log = s.log ++ [⟨i, .timeoutScan, s.db, s'.db⟩])
      (ht : s.db.transactions.find? t.transactionId = some t) (hid : t.accountId = id)
      (hstatus : t.status = .COMPLETED)
      (hreversed : s'.db.transactions.find? t.transactionId = some { t with status := .BLOCKED })
      (hbalance : account'.balance = account.balance - t.signedAmount)
      (hc : c ∈ s.log) (hcall : c.call = .create input request) (hrequested : Requested input t)
      (hmoves : Moves input request before row c.before c.after)

/-- What a `create` call that has ended without being cut off has committed. -/
inductive CallEffect (input : CreateTransactionInput) (request : Request) :
    Outcome Reply → List (Database × Database) → Prop
  | moved {account row b a} (h : Moves input request account row b a) :
      CallEffect input request
        (.returned (.transaction (.success 201 (toTransactionResponse row none)))) [(b, a)]
  | blocked {b a} (h : Blocks input b a) :
      CallEffect input request
        (.returned (.transaction (.failure 422 "Invalid transaction"))) [(b, a)]
  | unchanged {outcome hist} (h : ∀ c ∈ hist, c.2 = c.1)
      (hnot : ∀ data, outcome ≠ .returned (.transaction (.success 201 data))) :
      CallEffect input request outcome hist

variable {d : Deployment} {own : Lock → Prop} {db db' : Database}
variable {input : CreateTransactionInput} {request : Request}

/-! ### From commits to movements -/

private theorem signedAmount_of_debit {t : Transaction} (h : t.type = .DEBIT) :
    t.signedAmount = -t.amount := by
  simp [Transaction.signedAmount, h]

private theorem signedAmount_of_credit {t : Transaction} (h : t.type = .CREDIT) :
    t.signedAmount = t.amount := by
  simp [Transaction.signedAmount, h]

private theorem Accepted.entitled {account : Account}
    (h : Accepted d input request own db account) : Entitled input request account := by
  obtain ⟨auth, hauth, hallowed⟩ := h.allowed
  unfold refusal at hallowed
  split at hallowed
  · cases hallowed
  · next hactive =>
    split at hallowed
    · cases hallowed
    · next howner =>
      split at hallowed
      · split at hallowed <;> cases hallowed
      · next hadmin =>
        refine ⟨h.live, hactive, fun htype ↦ ⟨auth, hauth, ?_⟩, fun htype ↦ ⟨auth, hauth, ?_⟩,
          h.funded⟩
        · by_contra hne
          exact howner ⟨htype, hne⟩
        · by_contra hne
          exact hadmin ⟨htype, hne⟩

private theorem Cleared.moves {account : Account} {row : Transaction} {event : OutboxEvent}
    (h : Cleared d input request own db account row)
    (hevent : event.toOutboxEventData = completedEvent input row
      (newBalance input.type account.balance row.amount) request.ipAddress)
    (hunsent : Unsent own db event) :
    Moves input request account row db
      (((db.addTransaction row).setBalance input.accountId
        (newBalance input.type account.balance row.amount)).addOutboxEvent event) := by
  obtain ⟨id, authorizedAt, createdAt, rfl⟩ := h.inserted
  refine ⟨h.found, h.entitled, h.fresh, ⟨rfl, rfl, rfl, rfl⟩, rfl, event, hunsent.absent, ?_, ?_,
    ?_⟩
  · rw [hevent]
    rfl
  · rw [hevent]
    rfl
  · rw [← newBalance_eq]
    rfl

/-- A request that commits a change moves money or is blocked. -/
private theorem Commits.create_effect (h : Commits d (.create input request) own db db') :
    (∃ account row, Moves input request account row db db') ∨ Blocks input db db' := by
  cases h with
  | complete h hevent hunsent => exact .inl ⟨_, _, h.moves hevent hunsent⟩
  | block h hevent hunsent =>
    obtain ⟨id, authorizedAt, createdAt, rfl⟩ := h.inserted
    exact .inr ⟨h.fresh, _, _, ⟨rfl, rfl, rfl, rfl⟩, rfl, hunsent.absent, by rw [hevent]; rfl,
      by rw [hevent]; rfl, rfl⟩

/-- The row that a movement inserts. -/
private theorem Moves.found_row {account : Account} {row : Transaction}
    (h : Moves input request account row db db') :
    db'.transactions.find? input.transactionId = some row := by
  obtain ⟨event, -, -, -, rfl⟩ := h.change
  rw [h.requested.transactionId]
  exact Table.find?_insert_self (h.requested.transactionId ▸ h.fresh)

/-- The account that a movement writes. -/
private theorem Moves.account {account : Account} {row : Transaction}
    (h : Moves input request account row db db') {id : String} {a a' : Account}
    (ha : db.accounts.find? id = some a) (ha' : db'.accounts.find? id = some a')
    (hne : a'.balance ≠ a.balance) :
    input.accountId = id ∧ a = account ∧ a'.balance = account.balance + row.signedAmount := by
  obtain ⟨event, -, -, -, rfl⟩ := h.change
  rw [Database.accounts_addOutboxEvent, Database.accounts_setBalance, Table.find?_modify] at ha'
  by_cases hid : id = input.accountId
  · rw [if_pos hid, Database.accounts_addTransaction, h.found] at ha'
    rw [hid, h.found] at ha
    cases ha
    cases ha'
    exact ⟨hid.symm, rfl, rfl⟩
  · rw [if_neg hid, Database.accounts_addTransaction, ha] at ha'
    cases ha'
    exact absurd rfl hne

private theorem Blocks.found_row (h : Blocks input db db') :
    ∃ row, db'.transactions.find? input.transactionId = some row ∧ row.status = .BLOCKED := by
  obtain ⟨hfresh, row, event, hrequested, hstatus, -, -, -, rfl⟩ := h
  refine ⟨row, ?_, hstatus⟩
  rw [hrequested.transactionId]
  exact Table.find?_insert_self (hrequested.transactionId ▸ hfresh)

/-- Only a request inserts a transaction. -/
private theorem Commits.inserted_by {call : Call} {tid : String} {t : Transaction}
    (h : Commits d call own db db') (hbefore : db.transactions.find? tid = none)
    (hafter : db'.transactions.find? tid = some t) :
    ∃ input request, call = .create input request ∧ input.transactionId = tid := by
  have hmodified : ∀ tid' status,
      (db.setStatus tid' status).transactions.find? tid ≠ some t := by
    intro tid' status hfound
    rw [Database.transactions_setStatus, Table.find?_modify] at hfound
    split at hfound
    · next htid =>
      rw [← htid, hbefore] at hfound
      cases hfound
    · rw [hbefore] at hfound
      cases hfound
  have hsame : db.transactions.find? tid ≠ some t := by simp [hbefore]
  cases h with
  | @complete input request _ _ account row event hclear hevent hunsent =>
    obtain ⟨id, authorizedAt, createdAt, rfl⟩ := hclear.inserted
    rcases Table.eq_or_of_find?_insert hafter with rfl | hold
    · have htid := Table.key_of_find? hafter
      exact ⟨input, request, rfl, htid⟩
    · exact absurd hold hsame
  | @block input request _ _ account row event reason hadm hevent hunsent =>
    obtain ⟨id, authorizedAt, createdAt, rfl⟩ := hadm.inserted
    rcases Table.eq_or_of_find?_insert hafter with rfl | hold
    · have htid := Table.key_of_find? hafter
      exact ⟨input, request, rfl, htid⟩
    · exact absurd hold hsame
  | post => exact absurd hafter hsame
  | skip => exact absurd hafter hsame
  | finalize => exact absurd hafter (hmodified _ _)
  | pass => exact absurd hafter hsame
  | compensate => exact absurd hafter (hmodified _ _)

variable {accounts : Table Account.id} {now : Js.Date} {s s' : SystemState}

/-- A completed transaction moved money when it was requested. -/
private theorem moved_before (h : Runs d (initial accounts now) s) {t : Transaction}
    (ht : s.db.transactions.find? t.transactionId = some t) (hstatus : t.status = .COMPLETED) :
    ∃ c ∈ s.log, ∃ input request account row, c.call = .create input request ∧
      Requested input t ∧ Moves input request account row c.before c.after := by
  obtain ⟨c, hc, hbefore, hafter⟩ := Relational.exists_commit
    (P := fun x : Database ↦ x.transactions.find? t.transactionId ≠ none) h
    (by simp [initial, Relational.State.initial, Database.opening]) (by simp [ht])
  obtain ⟨t₀, ht₀⟩ := Option.ne_none_iff_exists'.mp hafter
  have hnone : c.before.transactions.find? t.transactionId = none := by simpa using hbefore
  obtain ⟨-, hcommit, -, hlater⟩ := (sound h).commits c hc
  have hchange : c.after ≠ c.before := fun he ↦ by
    rw [he, hnone] at ht₀
    cases ht₀
  have hcommit := ((Relation.reflGen_iff _ _ _).mp hcommit).resolve_left hchange
  obtain ⟨input, request, hcall, htid⟩ := hcommit.inserted_by hnone ht₀
  rw [hcall] at hcommit
  rcases hcommit.create_effect with ⟨account, row, hmoves⟩ | hblocks
  · refine ⟨c, hc, input, request, account, row, hcall, ?_, hmoves⟩
    obtain ⟨status, hfound, -⟩ := Evolves.transaction hlater hmoves.found_row
    rw [htid, ht] at hfound
    cases hfound
    exact hmoves.requested.withStatus status
  · obtain ⟨row, hrow, hblocked⟩ := hblocks.found_row
    have hfound := Evolves.transaction_settled hlater hrow (by simp [hblocked])
    rw [htid, ht] at hfound
    cases hfound
    simp [hblocked] at hstatus

/-- A step that changes a balance is a movement. -/
theorem movement_of_step (h : Runs d (initial accounts now) s) {a : SystemAction}
    (hstep : Relational.step (begins d) s a = some s') {id : String} {account account' : Account}
    (haccount : s.db.accounts.find? id = some account)
    (haccount' : s'.db.accounts.find? id = some account')
    (hne : account'.balance ≠ account.balance) : Movement s s' id account account' := by
  have hsame : s'.db.accounts ≠ s.db.accounts := by
    intro he
    rw [he, haccount] at haccount'
    cases haccount'
    exact hne rfl
  rcases Relational.db_step hstep with ⟨hd, -⟩ | ⟨i, -, call, -, -, -, -, -, hlog⟩
  · exact absurd (congrArg Database.accounts hd) hsame
  · have hnext : Runs d (initial accounts now) s' := Relation.ReflTransGen.tail h ⟨a, hstep⟩
    obtain ⟨-, hcommit, -⟩ := (sound hnext).commits ⟨i, call, s.db, s'.db⟩ (by simp [hlog])
    have hcommit : Commits d call (fun _ ↦ True) s.db s'.db :=
      ((Relation.reflGen_iff _ _ _).mp hcommit).resolve_left
        fun he ↦ hsame (congrArg Database.accounts he)
    cases call with
    | create input request =>
      rcases hcommit.create_effect with ⟨account₀, row, hmoves⟩ |
        ⟨-, row, event, -, -, -, -, -, hdb⟩
      · obtain ⟨hid, rfl, hbalance⟩ := hmoves.account haccount haccount' hne
        have htype := hmoves.requested.type
        cases hinput : input.type with
        | DEBIT =>
          rw [signedAmount_of_debit (htype ▸ hinput), ← hmoves.requested.amount] at hbalance
          exact .debit hlog hmoves hid hinput hbalance
        | CREDIT =>
          rw [signedAmount_of_credit (htype ▸ hinput), ← hmoves.requested.amount] at hbalance
          exact .credit hlog hmoves hid hinput hbalance
      · exact absurd (congrArg Database.accounts hdb) hsame
    | ledgerEvent eventId =>
      generalize hdb : s'.db = db' at hcommit
      cases hcommit with
      | post => exact absurd (congrArg Database.accounts hdb) hsame
      | skip => exact absurd (congrArg Database.accounts hdb) hsame
    | finalizationEvent eventId =>
      generalize hdb : s'.db = db' at hcommit
      cases hcommit with
      | finalize => exact absurd (congrArg Database.accounts hdb) hsame
      | pass => exact absurd (congrArg Database.accounts hdb) hsame
    | timeoutScan =>
      generalize hdb : s'.db = db' at hcommit
      cases hcommit with
      | @compensate _ _ t account₀ balance event ht hstatus hentry hfound hbalance =>
        obtain ⟨c, hc, input, request, before, row, hcall, hrequested, hmoves⟩ :=
          moved_before h ht hstatus
        rw [hdb, Database.accounts_addOutboxEvent, Database.accounts_setStatus,
          Database.accounts_setBalance, Table.find?_modify] at haccount'
        by_cases hid : id = t.accountId
        · rw [if_pos hid, hfound] at haccount'
          rw [hid, hfound] at haccount
          cases haccount
          cases haccount'
          refine .reversal hlog ht hid.symm hstatus ?_ ?_ hc hcall hrequested hmoves
          · rw [hdb, Database.transactions_addOutboxEvent, Database.transactions_setStatus,
              Table.find?_modify, if_pos rfl, Database.transactions_setBalance, ht]
            rfl
          · exact hbalance.trans (restoredBalance_eq t _)
        · rw [if_neg hid, haccount] at haccount'
          cases haccount'
          exact absurd rfl hne

/-! ### The effect of a call -/

private theorem effect_of_ends {born : Database} {outcome : Outcome Reply}
    {hist : List (Database × Database)}
    (hcommits : ∀ c ∈ hist, Relation.ReflGen (Commits d (.create input request) fun _ ↦ True)
      c.1 c.2)
    (h : CreateEnds d input request born outcome hist) : CallEffect input request outcome hist := by
  have changed : ∀ {b a : Database} {row : Transaction}, hist = [(b, a)] →
      b.transactions.find? input.transactionId = none →
      a.transactions.find? input.transactionId = some row →
      Commits d (.create input request) (fun _ ↦ True) b a := by
    rintro b a row rfl hfresh hfound
    refine ((Relation.reflGen_iff _ _ _).mp (hcommits (b, a) List.mem_cons_self)).resolve_left ?_
    intro he
    change a = b at he
    rw [he, hfresh] at hfound
    cases hfound
  cases h with
  | completed later fresh inserted found =>
    rcases (changed rfl fresh found).create_effect with ⟨account, row, hmoves⟩ | hblocks
    · obtain rfl := Option.some.inj (hmoves.found_row.symm.trans found)
      exact .moved hmoves
    · obtain ⟨row, hrow, hblocked⟩ := hblocks.found_row
      obtain rfl := Option.some.inj (hrow.symm.trans found)
      obtain ⟨id, authorizedAt, createdAt, rfl⟩ := inserted
      cases hblocked
  | blocked later fresh found requested status =>
    rcases (changed rfl fresh found).create_effect with ⟨account, row, hmoves⟩ | hblocks
    · obtain rfl := Option.some.inj (hmoves.found_row.symm.trans found)
      simp [hmoves.status] at status
    · exact .blocked hblocks
  | threw => exact .unchanged (by simp) (by simp)
  | unauthenticated => exact .unchanged (by simp) (by simp)
  | missing => exact .unchanged (by simp) (by simp)
  | underfunded => exact .unchanged (by simp) (by simp)
  | @existing _ _ t =>
    refine .unchanged (by simp) fun data he ↦ ?_
    simp only [Outcome.returned.injEq, Reply.transaction.injEq] at he
    exact answerExisting_ne_201 t he
  | refused _ _ _ hrefused =>
    obtain ⟨code, message, rfl, -⟩ := refusal_eq_some hrefused
    exact .unchanged (by simp) (by simp)

private theorem commits_of_call (h : Runs d (initial accounts now) s) {i : Nat} {born : Database}
    {phase : Relational.Phase Database Lock Supply Reply}
    (hi : s.session i = some ⟨.create input request, born, phase⟩) :
    ∀ c ∈ s.commitsOf i,
      Relation.ReflGen (Commits d (.create input request) fun _ ↦ True) c.1 c.2 := by
  intro pair hmem
  obtain ⟨c, hc, rfl⟩ := List.mem_map.mp hmem
  obtain ⟨hlog, hsession⟩ := List.mem_filter.mp hc
  obtain ⟨⟨x, hx, hcall, -⟩, hcommit, -⟩ := (sound h).commits c hlog
  rw [of_decide_eq_true hsession, hi] at hx
  cases hx
  rw [← hcall] at hcommit
  exact hcommit

private theorem atomic_create (call : Call) (db : Database) (program : Process Reply)
    (hcall : ∃ input request, call = .create input request)
    (hb : begins d call db = some program) : program.Atomic := by
  obtain ⟨input, request, rfl⟩ := hcall
  cases hb
  have hquery : ∀ {β : Type} (q : Query β), (Relational.Tx.query q).Uncommitted :=
    fun q ↦ Relational.Tx.uncommitted_query q
  have hbody : ∀ auth, (createInTransaction d input request.ipAddress auth).Uncommitted := by
    intro auth
    refine .bind (hquery _) fun found ↦ ?_
    cases found with
    | none => trivial
    | some account =>
      dsimp only
      split
      · trivial
      · refine .bind (hquery _) fun _ ↦ .bind (hquery _) fun existing ↦ ?_
        cases existing with
        | some existingTxn => trivial
        | none =>
          dsimp only
          split
          · trivial
          · refine .bind (hquery _) fun _ ↦ .bind (hquery _) fun _ ↦ .bind (hquery _) fun _ ↦
              .bind (hquery _) fun _ ↦ .bind (hquery _) fun _ ↦ .bind (hquery _) fun _ ↦ ?_
            dsimp only
            split
            · exact .bind (hquery _) fun _ ↦ .bind (hquery _) fun _ ↦ trivial
            · exact .bind (hquery _) fun _ ↦ .bind (hquery _) fun _ ↦ trivial
  unfold create
  split
  · trivial
  · next auth hauth =>
    rw [Relational.Tx.transaction_bind]
    exact (hbody auth).atomic _

/-- Who moves money, and what the answer of a call says about it. -/
structure MoneyMoves (d : Deployment) (s : SystemState) : Prop where
  /-- Every change of a balance is a debit, a credit or a reversal. -/
  movement : ∀ {a s' id account account'}, Relational.step (begins d) s a = some s' →
    s.db.accounts.find? id = some account → s'.db.accounts.find? id = some account' →
    account'.balance ≠ account.balance → Movement s s' id account account'
  /-- A call that has ended has changed what its outcome says. -/
  effect : ∀ {i input request born outcome},
    s.session i = some ⟨.create input request, born, .done outcome⟩ → outcome ≠ .failed →
    CallEffect input request outcome (s.commitsOf i)
  /-- A call whose answer is decided has changed what the answer says. -/
  decided : ∀ {i input request born r pending},
    s.session i = some ⟨.create input request, born, .running (.pure r) pending⟩ →
    CallEffect input request (.returned r) (s.commitsOf i)
  /-- A call that ends by an exception, or is cut off, while it has anything more to do than to
  answer has changed nothing and never will. -/
  thrown : ∀ {i input request born program pending a s' outcome},
    s.session i = some ⟨.create input request, born, .running program pending⟩ →
    (∀ r, program ≠ .pure r) → Relational.step (begins d) s a = some s' →
    s'.session i = some ⟨.create input request, born, .done outcome⟩ →
    s'.db = s.db ∧ ∀ s'', Runs d s' s'' → s''.commitsOf i = []

/-- In every reachable state money is moved by the owner's debits, by administrators' credits and
by reversals only, and every call changes exactly what its outcome says. -/
theorem money_moves (h : Runs d (initial accounts now) s) : MoneyMoves d s where
  movement := fun hstep ha ha' hne ↦ movement_of_step h hstep ha ha' hne
  effect := by
    intro i input request born outcome hi hfailed
    have hends := ((sound h).done i _ _ _ hi).resolve_left hfailed
    exact effect_of_ends (commits_of_call h hi) hends
  decided := by
    intro i input request born r pending hi
    have hends : CreateEnds d input request born (.returned r) (s.commitsOf i) :=
      (sound h).running i _ _ _ _ hi
    exact effect_of_ends (commits_of_call h hi) hends
  thrown := by
    intro i input request born program pending a s' outcome hi hmore hstep hend
    have hnil := Relational.commitsOf_eq_nil_of_atomic
      (P := fun call ↦ ∃ input request, call = .create input request)
      (fun call db program ↦ atomic_create call db program) h ⟨input, request, rfl⟩ hi hmore
    obtain ⟨hdb, hcommits⟩ := Relational.unchanged_of_end hstep hi hend
    refine ⟨hdb, fun s'' hs'' ↦ ?_⟩
    rw [(Relational.commitsOf_done hs'' hend).2, hcommits, hnil]

/-- The sample debit moved money, and nothing else did. -/
theorem money_moves_debit : ∃ s, Sample.after Sample.debit = some s ∧
    s.log.length = 1 ∧ MoneyMoves Sample.deployment s := by
  have hrun : (Sample.after Sample.debit).map (fun s ↦ s.log.length) = some 1 := by
    decide +kernel
  obtain ⟨s, hs, hlength⟩ := Option.map_eq_some_iff.mp hrun
  exact ⟨s, hs, hlength, money_moves (Relational.runs_of_run hs)⟩

end Banking
