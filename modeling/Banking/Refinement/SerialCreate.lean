import Banking.Atomic.Stability
import Banking.Refinement.Identifiers
import Banking.Refinement.SequentialCreate
import Banking.Relational.Linearization

/-!
# Requests take effect at one point

Whatever other processes commit between the statements of `create`, its answer and its write are
those of the sequential program at one database that the request has seen: at the database of its
commit if it writes, and at the database of its last lookup if it does not.
-/

namespace Banking

open Js (Date)
open Relational (Env Promises Table Tx)

/-- One committed transaction, by a process that has locked the identifiers it uses. -/
def LockedCommits (d : Deployment) (call : Call) (own : Lock → Prop) (b a : Database) : Prop :=
  Commits d call own b a ∧ Identified own b a

/-- Owning more locks forbids no commit. -/
theorem lockedCommits_mono (d : Deployment) : Relational.LockMonotone (LockedCommits d) :=
  fun call own own' b a ho h ↦
    ⟨commits_mono d call own own' b a ho h.1, Identified.footprint.mono ho h.2⟩

/-- What one committed transaction of a call does when it runs alone. -/
def Serial (d : Deployment) (call : Call) (b a : Database) : Prop :=
  match call with
  | .timeoutScan => ∃ candidate env,
    (Tx.transaction (Finalization.compensateInTransaction candidate)).perform env 0 id b =
      (some (), a)
  | _ => ∃ program env reply, begins d call b = some program ∧
    program.perform env 0 id b = (some reply, a)

/-- A commit changes nothing or does what its transaction does alone. -/
def SerialEffect (d : Deployment) (call : Call) (b a : Database) : Prop :=
  a = b ∨ Serial d call b a

/-- A request answers as the sequential program does at a database it has seen, and commits what
this program leaves there. -/
def CreateAnswers (d : Deployment) (input : CreateTransactionInput) (request : Request)
    (seen : List Database) (hist : List (Database × Database)) (result : TransactionResult) :
    Prop :=
  ∃ b ∈ seen, ∃ env a, (create d input request).perform env 0 id b = (some result, a) ∧
    (hist = [(b, a)] ∨ a = b ∧ ∀ p ∈ hist, p.2 = p.1)

/-- How a call may end: a request answers so, and the others end in any way. -/
def SerialEnds (d : Deployment) : Call → Database → List Database →
    List (Database × Database) → Relational.Outcome Reply → Prop
  | .create input request, _, seen, hist, .returned (.transaction result) =>
    CreateAnswers d input request seen hist result
  | .create _ _, _, _, _, .returned .done => False
  | _, _, _, _, _ => True

variable {d : Deployment} {input : CreateTransactionInput} {request : Request}
variable {own : Lock → Prop} {b db db' : Database} {account : Account} {row : Transaction}

/-- Locked commits are commits. -/
theorem evolves_of_locked (he : Relational.Evolves (LockedCommits d) own db db') :
    Evolves d own db db' :=
  he.weaken fun _ _ _ h ↦ h.1

/-- A new transaction identifier that nobody else has locked stays new. -/
theorem transactionPk_new (he : Relational.Evolves (LockedCommits d) own db db') {id : String}
    (hlock : ¬ own (.transactionPk id)) (hnew : ∀ t ∈ db.transactions.rows, t.id ≠ id) :
    ∀ t ∈ db'.transactions.rows, t.id ≠ id :=
  Relational.Evolves.invariant (P := fun db ↦ ∀ t ∈ db.transactions.rows, t.id ≠ id)
    (fun _ _ _ hc hb ↦ hc.2.transaction_new hlock hb) he hnew

/-- A new ledger entry identifier that nobody else has locked stays new. -/
theorem ledgerEntryPk_new (he : Relational.Evolves (LockedCommits d) own db db') {id : String}
    (hlock : ¬ own (.ledgerEntryPk id)) (hnew : ∀ l ∈ db.ledgerEntries.rows, l.id ≠ id) :
    ∀ l ∈ db'.ledgerEntries.rows, l.id ≠ id :=
  Relational.Evolves.invariant (P := fun db ↦ ∀ l ∈ db.ledgerEntries.rows, l.id ≠ id)
    (fun _ _ _ hc hb ↦ hc.2.ledgerEntry_new hlock hb) he hnew

/-! ### Decisions -/

/-- The choices that a request's decision and its inserts depend on. -/
def chosen (countFrom amtFrom authorized insert event : Env Supply) : Nat → Env Supply
  | 3 => countFrom
  | 5 => amtFrom
  | 7 => authorized
  | 8 => insert
  | _ => event

/-- Identifiers that no row has. -/
private theorem exists_generates (db : Database) : ∃ env, Generates env db := by
  obtain ⟨id, hid⟩ := exists_unused
    (db.transactions.rows.map Transaction.id ++ db.outboxEvents.rows.map OutboxEvent.id)
  simp only [List.mem_append, List.mem_map, not_or, not_exists, not_and] at hid
  exact ⟨fun _ ↦ ⟨0, ⟨id, []⟩⟩, fun _ t ht ↦ hid.1 t ht,
    fun _ ↦ Table.find?_eq_none.mpr fun e he ↦ hid.2 e he⟩

/-- A request that decides to answer at a database it has seen. -/
private theorem answers_of_decision {seen : List Database} {hist : List (Database × Database)}
    {result : TransactionResult} (hseen : b ∈ seen)
    (hdecided : ∀ env, decisionOf d input request env b = .answer result)
    (hhist : ∀ p ∈ hist, p.2 = p.1) : CreateAnswers d input request seen hist result := by
  obtain ⟨env, hnew⟩ := exists_generates b
  refine ⟨b, hseen, env, b, ?_, .inr ⟨rfl, hhist⟩⟩
  rw [perform_create hnew, hdecided]
  rfl

/-- What an accepted request decides under an unused `transactionId`. -/
private theorem decisionOf_accepted (hacc : Accepted d input request own db account)
    (hfresh : db.transactions.find? input.transactionId = none) (env : Nat → Env Supply) :
    decisionOf d input request env db =
      if decide ((db.recent account.userId ((env 3).now - 60000)).length + 1 >
          d.config.MAX_TXN) ||
        decide (totalTxnAmount input (Sql.debitSum db account.userId ((env 5).now - 60000)) >
          d.config.FRAUD_TXN_AMOUNT) then
        .block (blockReason
          (decide ((db.recent account.userId ((env 3).now - 60000)).length + 1 >
            d.config.MAX_TXN))
          (decide (totalTxnAmount input (Sql.debitSum db account.userId
            ((env 5).now - 60000)) > d.config.FRAUD_TXN_AMOUNT)))
      else .settle account := by
  obtain ⟨auth, hauth, hallowed⟩ := hacc.allowed
  have hlive : Sql.liveAccount db input.accountId = some account :=
    Sql.liveAccount_eq_some.mpr ⟨hacc.found, hacc.live⟩
  have hfunded : ¬ (input.type = .DEBIT ∧ account.balance ≤ input.amountMinor) :=
    fun h ↦ Int.not_le.mpr (hacc.funded h.1) h.2
  simp only [decisionOf, decision, hauth, hlive, hallowed, hfresh, if_neg hfunded]

/-- The decision stays under the locks of the request. -/
private theorem decisionOf_evolves (hadm : Admitted d input request own db account row)
    (he : Evolves d (fun l ↦ ¬ own l) db db') (env : Nat → Env Supply) :
    decisionOf d input request env db' = decisionOf d input request env db := by
  have hadm' := hadm.evolves he
  have hown : ¬ ¬ own (.advisory (d.hashtextextended account.userId)) :=
    fun hn ↦ hn hadm.ownAdvisory
  rw [decisionOf_accepted hadm.toAccepted hadm.fresh,
    decisionOf_accepted hadm'.toAccepted hadm'.fresh, he.count_locked hown,
    he.debitSum_locked hown]

/-! ### After the insert -/

/-- The answer of the engine, committed. -/
private abbrev finish (result : TransactionResult) : Process Reply :=
  .commit (.pure (.transaction result))

/-- What is known of a request after its insert: its row, its decision, and the locks it has. -/
private structure Inserted (d : Deployment) (input : CreateTransactionInput) (request : Request)
    (own : Lock → Prop) (db : Database) (account : Account) (countFrom amtFrom authorized
      insert : Env Supply) (decided : Decision) : Prop where
  admitted : Admitted d input request own db account
    (newTransaction input insert.supply.id authorized.now insert.now)
  decision : ∀ event, decisionOf d input request
    (chosen countFrom amtFrom authorized insert event) db = decided
  unused : ∀ t ∈ db.transactions.rows, t.id ≠ insert.supply.id
  ownPk : own (.transactionPk insert.supply.id)

namespace Inserted

variable {countFrom amtFrom authorized insert : Env Supply} {decided : Decision}

private theorem evolves (h : Inserted d input request own db account countFrom amtFrom authorized
      insert decided) (he : Relational.Evolves (LockedCommits d) (fun l ↦ ¬ own l) db db') :
    Inserted d input request own db' account countFrom amtFrom authorized insert decided where
  admitted := h.admitted.evolves (evolves_of_locked he)
  decision event := (decisionOf_evolves h.admitted (evolves_of_locked he) _).trans
    (h.decision event)
  unused := transactionPk_new he (fun hn ↦ hn h.ownPk) h.unused
  ownPk := h.ownPk

private theorem mono {own' : Lock → Prop} (ho : ∀ l, own l → own' l)
    (h : Inserted d input request own db account countFrom amtFrom authorized insert decided) :
    Inserted d input request own' db account countFrom amtFrom authorized insert decided :=
  ⟨h.admitted.mono ho, h.decision, h.unused, ho _ h.ownPk⟩

/-- The request commits what it has decided. -/
private theorem commits (h : Inserted d input request own db account countFrom amtFrom authorized
      insert decided) (event : Env Supply)
    (hevent : db.outboxEvents.find? event.supply.id = none) {seen : List Database} {a : Database}
    {result : TransactionResult}
    (hwrite : decided.write input request.ipAddress
      (chosen countFrom amtFrom authorized insert event) db = a)
    (hresult : decided.result input (chosen countFrom amtFrom authorized insert event) =
      result) :
    SerialEffect d (.create input request) db a ∧
      SerialEnds d (.create input request) b (seen ++ [db]) ([] ++ [(db, a)])
        (.returned (.transaction result)) := by
  have hperform : (create d input request).perform
      (chosen countFrom amtFrom authorized insert event) 0 id db = (some result, a) := by
    rw [perform_create_of h.unused hevent, h.decision, hwrite, hresult]
  constructor
  · refine .inr ⟨_, chosen countFrom amtFrom authorized insert event, .transaction result, rfl, ?_⟩
    refine (Tx.perform_map Reply.transaction _).trans ?_
    rw [hperform]
    rfl
  · exact ⟨db, List.mem_append_right _ (List.mem_singleton_self _), _, a, hperform, .inl rfl⟩

end Inserted

section AfterInsert

variable {countFrom amtFrom authorized insert : Env Supply} {seen : List Database}

private theorem promises_settle (h : Inserted d input request own db account countFrom amtFrom
      authorized insert (.settle account)) :
    Promises (LockedCommits d) (SerialEffect d (.create input request))
      (SerialEnds d (.create input request) b)
      (settle input request.ipAddress account
        (newTransaction input insert.supply.id authorized.now insert.now) >>= finish) own
      (fun x ↦ x.addTransaction (newTransaction input insert.supply.id authorized.now insert.now))
      seen [] db := by
  simp only [settle, Tx.bind_assoc]
  refine Promises.query_bind (fun _ db₁ he₁ _ _ ↦ ?_) (fun _ _ _ _ ↦ trivial)
  refine Promises.query_bind (fun event db₂ he₂ _ hr₂ ↦ ?_) (fun _ _ _ _ ↦ trivial)
  refine Promises.commit_pure fun db₃ he₃ ↦ ?_
  have h₃ := (((h.evolves he₁).mono fun _ ↦ Or.inl).evolves he₂).mono (fun _ ↦ Or.inl)
    |>.evolves he₃
  have hunsent := (Unsent.of_result db₂ hr₂ rfl).evolves (evolves_of_locked he₃)
  exact h₃.commits event hunsent.absent rfl rfl

private theorem promises_block {reason : String} (h : Inserted d input request own db account
      countFrom amtFrom authorized insert (.block reason)) :
    Promises (LockedCommits d) (SerialEffect d (.create input request))
      (SerialEnds d (.create input request) b)
      (block input request.ipAddress
        (newTransaction input insert.supply.id authorized.now insert.now) reason >>= finish) own
      (fun x ↦ x.addTransaction (newTransaction input insert.supply.id authorized.now insert.now))
      seen [] db := by
  simp only [block, Tx.bind_assoc]
  refine Promises.query_bind (fun _ db₁ he₁ _ _ ↦ ?_) (fun _ _ _ _ ↦ trivial)
  refine Promises.query_bind (fun event db₂ he₂ _ hr₂ ↦ ?_) (fun _ _ _ _ ↦ trivial)
  refine Promises.commit_pure fun db₃ he₃ ↦ ?_
  have h₃ := (((h.evolves he₁).mono fun _ ↦ Or.inl).evolves he₂).mono (fun _ ↦ Or.inl)
    |>.evolves he₃
  have hunsent := (Unsent.of_result db₂ hr₂ rfl).evolves (evolves_of_locked he₃)
  exact h₃.commits event hunsent.absent rfl rfl

end AfterInsert

/-! ### The whole call -/

/-- The insert of a transaction finds its identifier unused. -/
private theorem createTransaction_unused {transactionId accountId : String}
    {type : TransactionType} {amount : Int} {status : TransactionStatus} {authorizedAt : Date}
    {env : Env Supply} {t : Transaction}
    (h : (Sql.createTransaction transactionId accountId type amount status authorizedAt).result env
      db = some t) : ∀ t ∈ db.transactions.rows, t.id ≠ env.supply.id := by
  simp only [Sql.createTransaction] at h
  split at h
  · next hc =>
    simp only [Bool.and_eq_true, List.all_eq_true, decide_eq_true_eq] at hc
    exact hc.1.2
  · cases h

private theorem promises_applyFraudRules {seen : List Database}
    (hacc : Accepted d input request own db account) :
    Promises (LockedCommits d) (SerialEffect d (.create input request))
      (SerialEnds d (.create input request) b)
      (applyFraudRules d input request.ipAddress account >>= finish) own id seen [] db := by
  simp only [applyFraudRules, Tx.bind_assoc]
  refine Promises.read_bind Sql.now_reads fun countFrom db₁ he₁ _ hr₁ ↦ ?_
  refine Promises.read_bind (Sql.countTransactions_reads _ _) fun _ db₂ he₂ count hr₂ ↦ ?_
  refine Promises.read_bind Sql.now_reads fun amtFrom db₃ he₃ _ hr₃ ↦ ?_
  refine Promises.read_bind (Sql.sumDebits_reads _ _) fun _ db₄ he₄ amt hr₄ ↦ ?_
  refine Promises.read_bind Sql.now_reads fun authorized db₅ he₅ _ hr₅ ↦ ?_
  refine Promises.query_bind (fun insert db₆ he₆ resultTxn hr₆ ↦ ?_) (fun _ _ _ _ ↦ trivial)
  obtain ⟨hfresh, rfl⟩ := Sql.createTransaction_result hr₆
  cases hr₁
  cases hr₃
  cases hr₅
  have he := evolves_of_locked
    (((((he₁.trans he₂).trans he₃).trans he₄).trans he₅).trans he₆)
  have hacc₆ := hacc.evolves he
  -- both aggregates were computed under the advisory lock, which is still held
  have hown : ¬ ¬ own (.advisory (d.hashtextextended account.userId)) :=
    fun hn ↦ hn hacc.ownAdvisory
  have hcount : (db₆.recent account.userId (countFrom.now - 60000)).length = count := by
    rw [Evolves.count_locked (evolves_of_locked (((he₃.trans he₄).trans he₅).trans he₆)) hown]
    exact Option.some.inj hr₂
  have hamt : Sql.debitSum db₆ account.userId (amtFrom.now - 60000) = amt.getD 0 := by
    rw [Evolves.debitSum_locked (evolves_of_locked (he₅.trans he₆)) hown]
    exact (Sql.sumDebits_result hr₄).symm
  have hinserted : ∀ decided : Decision, (∀ event, decisionOf d input request
      (chosen countFrom amtFrom authorized insert event) db₆ = decided) →
      Inserted d input request (fun l ↦ own l ∨ l ∈ (Sql.createTransaction input.transactionId
        input.accountId input.type input.amountMinor .COMPLETED authorized.now).locks insert db₆)
        db₆ account countFrom amtFrom authorized insert decided := fun decided hdecided ↦
    { admitted := ⟨hacc₆.mono fun _ ↦ Or.inl, hfresh, ⟨_, _, _, rfl⟩,
        .inr (by simp [Sql.createTransaction])⟩
      decision := hdecided
      unused := createTransaction_unused hr₆
      ownPk := .inr (by simp [Sql.createTransaction]) }
  have hdecision := fun event ↦
    decisionOf_accepted hacc₆ hfresh (chosen countFrom amtFrom authorized insert event)
  simp only [chosen, hcount, hamt] at hdecision
  split
  · next hlimits => exact promises_block (hinserted _ fun event ↦
      (hdecision event).trans (if_pos hlimits))
  · next hlimits => exact promises_settle (hinserted _ fun event ↦
      (hdecision event).trans (if_neg hlimits))

private theorem promises_createInTransaction {auth : Auth} (hauth : request.auth = some auth) :
    Promises (LockedCommits d) (SerialEffect d (.create input request))
      (SerialEnds d (.create input request) b)
      (createInTransaction d input request.ipAddress auth >>= finish) (fun _ ↦ False) id [b] []
      b := by
  -- a request that only answers does so at the database of its last lookup
  have answered : ∀ {own : Lock → Prop} {seen : List Database} {x db : Database}
      {result : TransactionResult}, x ∈ seen →
      (∀ env, decisionOf d input request env x = .answer result) →
      Promises (LockedCommits d) (SerialEffect d (.create input request))
        (SerialEnds d (.create input request) b) (finish result) own id seen [] db := by
    intro own seen x db result hx hdecided
    refine Promises.commit_pure fun db' _ ↦ ⟨.inl rfl, ?_⟩
    refine answers_of_decision (List.mem_append_left _ hx) hdecided fun p hp ↦ ?_
    rw [List.mem_singleton.mp hp]
    rfl
  simp only [createInTransaction, Tx.bind_assoc]
  refine Promises.query_bind (fun env₁ db₁ he₁ found hr₁ ↦ ?_) (fun _ _ _ _ ↦ trivial)
  cases found with
  | none =>
    refine answered (x := db₁) (by simp) fun env ↦ ?_
    have hlive : Sql.liveAccount db₁ input.accountId = none := Option.some.inj hr₁
    simp only [decisionOf, decision, hauth, hlive]
  | some account =>
    have hlive : Sql.liveAccount db₁ input.accountId = some account := Option.some.inj hr₁
    dsimp only
    split
    · next result hrefused =>
      refine answered (x := db₁) (by simp) fun env ↦ ?_
      simp only [decisionOf, decision, hauth, hlive, hrefused]
    · next hallowed =>
      simp only [Tx.bind_assoc]
      refine Promises.query_bind (fun env₂ db₂ he₂ _ _ ↦ ?_) (fun _ _ _ _ ↦ trivial)
      refine Promises.read_bind (Sql.findTransaction_reads _) fun env₃ db₃ he₃ existing hr₃ ↦ ?_
      obtain ⟨hrow, hpresent⟩ := Sql.liveAccount_eq_some.mp hlive
      have hown : Lock.account input.accountId ∈
          (Sql.selectAccountForUpdate input.accountId).locks env₁ db₁ := by
        simp [Sql.selectAccountForUpdate, hlive]
      have hrow₂ := (Evolves.account_locked (evolves_of_locked he₂) fun hn ↦ hn (.inr hown)).trans
        hrow
      have hrow₃ := (Evolves.account_locked (evolves_of_locked he₃)
        fun hn ↦ hn (.inl (.inr hown))).trans hrow₂
      have hlive₃ : Sql.liveAccount db₃ input.accountId = some account :=
        Sql.liveAccount_eq_some.mpr ⟨hrow₃, hpresent⟩
      cases existing with
      | some existingTxn =>
        have ht : db₃.transactions.find? input.transactionId = some existingTxn :=
          Option.some.inj hr₃
        refine answered (x := db₃) (by simp) fun env ↦ ?_
        simp only [decisionOf, decision, hauth, hlive₃, hallowed, ht]
      | none =>
        have ht : db₃.transactions.find? input.transactionId = none := Option.some.inj hr₃
        dsimp only
        split
        · next hunderfunded =>
          refine answered (x := db₃) (by simp) fun env ↦ ?_
          simp only [decisionOf, decision, hauth, hlive₃, hallowed, ht, if_pos hunderfunded]
        · next hfunded =>
          refine promises_applyFraudRules
            { found := hrow₃
              live := hpresent
              allowed := ⟨auth, hauth, hallowed⟩
              funded := fun htype ↦ by simpa [htype] using hfunded
              ownAccount := .inl (.inr hown)
              ownAdvisory := .inr (by simp [Sql.advisoryXactLock]) }

/-- Whatever commits in between, a request answers and writes as the sequential program does at a
database it has seen. -/
theorem promises_create :
    Promises (LockedCommits d) (SerialEffect d (.create input request))
      (SerialEnds d (.create input request) b)
      (do
        let result ← create d input request
        return .transaction result : Process Reply) (fun _ ↦ False) id [b] [] b := by
  unfold create
  split
  · next hauth =>
    refine answers_of_decision (List.mem_singleton_self b) (fun env ↦ ?_) (by simp)
    simp only [decisionOf, hauth]
  · next auth hauth =>
    rw [Tx.transaction_bind]
    exact promises_createInTransaction hauth

end Banking
