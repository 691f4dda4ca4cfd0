import Banking.Refinement.SequentialCreate
import Mathlib.Data.Finset.Order
import Mathlib.Data.Fintype.EquivFin

/-!
# The range of the `BIGINT` columns

Amounts and balances are stored in 64 bits, and nothing bounds the amount of a request. A request
that adds to a balance, and the reversal of a debit, stay in the range exactly if the sum does;
nothing else can leave it.
-/

namespace Banking

open Js (Date)
open Relational (Env Table Tx)

/-- The largest value of a `BIGINT` column. -/
def maxBigInt : Int := 2 ^ 63 - 1

/-- The value is not negative and fits in a `BIGINT` column. -/
def Fits (n : Int) : Prop := 0 ≤ n ∧ n ≤ maxBigInt

instance (n : Int) : Decidable (Fits n) := inferInstanceAs (Decidable (_ ∧ _))

/-- All balances and amounts fit. -/
structure Database.InRange (db : Database) : Prop where
  balances : ∀ a ∈ db.accounts.rows, Fits a.balance
  amounts : ∀ t ∈ db.transactions.rows, Fits t.amount

variable {d : Deployment} {input : CreateTransactionInput} {request : Request} {db : Database}

namespace Database

/-- A fresh row fits if its amount does. -/
theorem inRange_addTransaction {t : Transaction} (h : db.InRange)
    (hfresh : db.transactions.find? t.transactionId = none) :
    (db.addTransaction t).InRange ↔ Fits t.amount := by
  have hrows : (db.addTransaction t).transactions.rows = db.transactions.rows ++ [t] :=
    Table.rows_insert hfresh
  constructor
  · exact fun hafter ↦ hafter.amounts t (hrows ▸ by simp)
  · intro ht
    refine ⟨h.balances, fun x hx ↦ ?_⟩
    rw [hrows] at hx
    rcases List.mem_append.mp hx with hold | hnew
    · exact h.amounts x hold
    · exact List.mem_singleton.mp hnew ▸ ht

/-- A balance that is written to an account is among the balances. -/
theorem fits_of_setBalance {id : String} {a : Account} {balance : Int}
    (ha : db.accounts.find? id = some a) (h : (db.setBalance id balance).InRange) :
    Fits balance := by
  have hfound : (db.setBalance id balance).accounts.find? id = some { a with balance } := by
    rw [accounts_setBalance, Table.find?_modify, if_pos rfl, ha]
    rfl
  exact h.balances _ (Table.mem_of_find? hfound)

/-- A balance that fits may be written. -/
theorem InRange.setBalance (h : db.InRange) (id : String) {balance : Int}
    (hbalance : Fits balance) : (db.setBalance id balance).InRange := by
  refine ⟨fun x hx ↦ ?_, h.amounts⟩
  rw [accounts_setBalance, Table.rows_modify] at hx
  obtain ⟨y, hy, rfl⟩ := List.mem_map.mp hx
  split
  · exact hbalance
  · exact h.balances y hy

/-- Statuses are no amounts. -/
theorem InRange.setStatus (h : db.InRange) (id : String) (status : TransactionStatus) :
    (db.setStatus id status).InRange := by
  refine ⟨h.balances, fun x hx ↦ ?_⟩
  rw [transactions_setStatus, Table.rows_modify] at hx
  obtain ⟨y, hy, rfl⟩ := List.mem_map.mp hx
  have hamount := h.amounts y hy
  split
  · exact hamount
  · exact hamount

/-- Outbox rows have no amounts. -/
theorem InRange.addOutboxEvent (h : db.InRange) (e : OutboxEvent) :
    (db.addOutboxEvent e).InRange := ⟨h.balances, h.amounts⟩

end Database

/-! ### Requests -/

/-- The request is a credit that passes the checks, uses a new `transactionId` and takes the
balance above the largest value. -/
def CreditExceeds (input : CreateTransactionInput) (request : Request) (db : Database) : Prop :=
  ∃ auth account, request.auth = some auth ∧ Sql.liveAccount db input.accountId = some account ∧
    refusal input auth account = none ∧ input.type = .CREDIT ∧
    db.transactions.find? input.transactionId = none ∧
    maxBigInt < account.balance + input.amountMinor

section Create

variable {account : Account} {ipAddress : Option String}

/-- The end of a request's transaction. -/
private abbrev commitResult (result : TransactionResult) : Process TransactionResult :=
  .commit (.pure result)

/-- What a request inserts and writes fits, unless a credit exceeds the range. -/
private theorem fits_of_not_exceeds (hdb : db.InRange)
    (haccount : db.accounts.find? input.accountId = some account)
    (hfunded : input.type = .DEBIT → input.amountMinor < account.balance)
    (hle : input.type = .CREDIT → account.balance + input.amountMinor ≤ maxBigInt) :
    Fits input.amountMinor ∧ Fits (newBalance input.type account.balance input.amountMinor) := by
  obtain ⟨hlow, hhigh⟩ := hdb.balances account (Table.mem_of_find? haccount)
  have hpos := input.amountMinor_pos
  cases htype : input.type with
  | DEBIT =>
    have := hfunded htype
    simp only [Fits, newBalance]
    omega
  | CREDIT =>
    have := hle htype
    simp only [Fits, newBalance]
    omega

private theorem always_applyFraudRules (hdb : db.InRange)
    (hfresh : db.transactions.find? input.transactionId = none)
    (hfits : Fits input.amountMinor ∧
      Fits (newBalance input.type account.balance input.amountMinor)) :
    Tx.Always Database.InRange
      (applyFraudRules d input ipAddress account >>= commitResult) id db := by
  simp only [applyFraudRules, Tx.bind_assoc]
  refine Tx.always_read Sql.now_reads hdb fun _ _ _ ↦ ?_
  refine Tx.always_read (Sql.countTransactions_reads _ _) hdb fun _ _ _ ↦ ?_
  refine Tx.always_read Sql.now_reads hdb fun _ _ _ ↦ ?_
  refine Tx.always_read (Sql.sumDebits_reads _ _) hdb fun _ _ _ ↦ ?_
  refine Tx.always_read Sql.now_reads hdb fun _ _ _ ↦ ?_
  refine Tx.always_bind.mpr fun env ↦ ?_
  have hinserted : ∀ row : Transaction, row.transactionId = input.transactionId →
      row.amount = input.amountMinor → (db.addTransaction row).InRange := by
    intro row hid hamount
    exact (Database.inRange_addTransaction hdb (hid ▸ hfresh)).mpr (hamount ▸ hfits.1)
  refine ⟨hinserted _ rfl rfl, fun row hrow ↦ ?_⟩
  obtain ⟨-, rfl⟩ := Sql.createTransaction_result hrow
  split
  · simp only [block, Tx.bind_assoc]
    refine Tx.always_bind.mpr fun _ ↦ ⟨(hinserted _ rfl rfl).setStatus _ _, fun _ _ ↦ ?_⟩
    exact Tx.always_bind.mpr fun _ ↦
      ⟨((hinserted _ rfl rfl).setStatus _ _).addOutboxEvent _, fun _ _ ↦ trivial⟩
  · simp only [settle, Tx.bind_assoc]
    refine Tx.always_bind.mpr fun _ ↦ ⟨(hinserted _ rfl rfl).setBalance _ hfits.2, fun _ _ ↦ ?_⟩
    exact Tx.always_bind.mpr fun _ ↦
      ⟨((hinserted _ rfl rfl).setBalance _ hfits.2).addOutboxEvent _, fun _ _ ↦ trivial⟩

/-- Some identifier is new, and some time is a minute after all transactions. -/
private theorem exists_env (db : Database) : ∃ env : Env Supply,
    (∀ t ∈ db.transactions.rows, t.id ≠ env.supply.id) ∧
      ∀ userId, db.recent userId (env.now - 60000) = [] := by
  let rows := db.transactions.rows
  obtain ⟨id, hid⟩ := Infinite.exists_notMem_finset (rows.map Transaction.id).toFinset
  obtain ⟨latest, hlatest⟩ := Finset.exists_le (rows.map Transaction.createdAt).toFinset
  refine ⟨⟨latest + 60001, ⟨id, []⟩⟩, fun t ht he ↦ ?_, fun userId ↦ ?_⟩
  · exact hid (List.mem_toFinset.mpr (List.mem_map.mpr ⟨t, ht, he⟩))
  · refine List.filter_eq_nil_iff.mpr fun t ht hrecent ↦ ?_
    have hle : t.createdAt ≤ latest :=
      hlatest _ (List.mem_toFinset.mpr (List.mem_map.mpr ⟨t, ht, rfl⟩))
    have hsince : latest + 60001 - 60000 ≤ t.createdAt :=
      of_decide_eq_true (Bool.and_eq_true_iff.mp hrecent).2
    have hlater := Int.le_trans hsince hle
    omega

private theorem fits_of_always (haccount : db.accounts.find? input.accountId = some account)
    (hfresh : db.transactions.find? input.transactionId = none) (htype : input.type = .CREDIT)
    (h : Tx.Always Database.InRange
      (applyFraudRules d input ipAddress account >>= commitResult) id db) :
    account.balance + input.amountMinor ≤ maxBigInt := by
  obtain ⟨env, hid, hrecent⟩ := exists_env db
  simp only [applyFraudRules, Tx.bind_assoc] at h
  -- at that time the fraud rules find nothing
  have h := h.of_select env rfl rfl
  have h := h.of_select (b := 0) env rfl (by simp [Sql.countTransactions, hrecent])
  have h := h.of_select env rfl rfl
  have h := h.of_select (b := none) env rfl (by simp [Sql.sumDebits, hrecent])
  have h := h.of_select env rfl rfl
  have h := h.of_result env (createTransaction_new haccount hfresh hid _)
  have hmax := d.config.MAX_TXN_pos
  have hamount := d.config.FRAUD_TXN_AMOUNT_pos
  rw [if_neg] at h
  · simp only [settle, Tx.bind_assoc] at h
    obtain ⟨hview, -⟩ := Tx.always_bind.mp h env
    have hfits : Fits (newBalance input.type account.balance input.amountMinor) := by
      refine Database.fits_of_setBalance (a := account) ?_ hview
      exact haccount
    rw [htype] at hfits
    exact hfits.2
  · simp [totalTxnAmount, htype]
    omega

/-- Whatever identifiers are generated and whenever it runs, a request writes values that fit
exactly if it is not a credit that exceeds the range. -/
theorem always_create (hdb : db.InRange) :
    Tx.Always Database.InRange (create d input request) id db ↔
      ¬ CreditExceeds input request db := by
  unfold create
  split
  · next hauth =>
    refine ⟨fun _ ⟨auth, _, hsome, _⟩ ↦ ?_, fun _ ↦ trivial⟩
    rw [hauth] at hsome
    cases hsome
  · next auth hauth =>
    unfold Tx.transaction createInTransaction
    simp only [Tx.bind_assoc]
    constructor
    · rintro h ⟨auth', account, hsome, hlive, hallowed, htype, hfresh, hexceeds⟩
      rw [hauth] at hsome
      cases hsome
      obtain ⟨haccount, -⟩ := Sql.liveAccount_eq_some.mp hlive
      obtain ⟨env, -⟩ := exists_env db
      have h := h.of_select (b := some account) env rfl (congrArg some hlive)
      simp only [hallowed, Tx.bind_assoc] at h
      have h := h.of_select env rfl rfl
      have h := h.of_select (b := none) env rfl (congrArg some hfresh)
      dsimp only at h
      rw [if_neg (by simp [htype])] at h
      exact Int.not_lt.mpr (fits_of_always haccount hfresh htype h) hexceeds
    · intro hnot
      refine Tx.always_select (fun _ ↦ rfl) hdb fun _ found hfound ↦ ?_
      cases found with
      | none => exact trivial
      | some account =>
        have hlive : Sql.liveAccount db input.accountId = some account := Option.some.inj hfound
        obtain ⟨haccount, -⟩ := Sql.liveAccount_eq_some.mp hlive
        dsimp only
        split
        · exact trivial
        · next hallowed =>
          simp only [Tx.bind_assoc]
          refine Tx.always_select (fun _ ↦ rfl) hdb fun _ _ _ ↦ ?_
          refine Tx.always_select (fun _ ↦ rfl) hdb fun _ existing hexisting ↦ ?_
          cases existing with
          | some existingTxn => exact trivial
          | none =>
            have hfresh : db.transactions.find? input.transactionId = none :=
              Option.some.inj hexisting
            dsimp only
            split
            · exact trivial
            · next hfunded =>
              refine always_applyFraudRules hdb hfresh (fits_of_not_exceeds hdb haccount
                (fun htype ↦ by simpa [htype] using hfunded) fun htype ↦ ?_)
              exact Int.not_lt.mp fun hexceeds ↦
                hnot ⟨auth, account, hauth, hlive, hallowed, htype, hfresh, hexceeds⟩

end Create

/-! ### Reversals -/

/-- The candidate is a completed debit without ledger entry whose reversal takes the balance above
the largest value. -/
def ReversalExceeds (candidate : String) (db : Database) : Prop :=
  ∃ t account, db.transactions.find? candidate = some t ∧ t.status = .COMPLETED ∧
    db.ledgerEntries.find? candidate = none ∧ db.accounts.find? t.accountId = some account ∧
    t.type = .DEBIT ∧ maxBigInt < account.balance + t.amount

/-- What the scan's transaction for a candidate leaves when it runs alone, `none` after an
exception. -/
def reversed (env : Env Supply) (candidate : String) (db : Database) : Option Database :=
  match (db.transactions.find? candidate).filter (fun t ↦ t.status = .COMPLETED) with
  | none => some db
  | some t =>
    match db.ledgerEntries.find? t.transactionId with
    | some _ => some db
    | none =>
      match db.accounts.find? t.accountId with
      | none => none
      | some account =>
        let balance := Finalization.restoredBalance t.type account.balance t.amount
        if balance < 0 then some db
        else if (db.outboxEvents.find? env.supply.id).isNone then
          some (((db.setBalance t.accountId balance).setStatus t.transactionId
            .BLOCKED).addOutboxEvent ((Finalization.compensatedEvent t balance).row env.supply.id
              env.now))
        else none

/-- No reversal of the candidates exceeds the range, each in a state that those before it may
leave. -/
def Spared : List String → Database → Prop
  | [], _ => True
  | candidate :: rest, db => ¬ ReversalExceeds candidate db ∧
      ∀ env db', reversed env candidate db = some db' → Spared rest db'

section Reversal

instance : Nonempty Supply := ⟨⟨"", []⟩⟩

/-- The writes of a reversal fit if the balance does. -/
private theorem always_reverse (hdb : db.InRange) {t : Transaction} {account : Account}
    (ht : db.transactions.find? t.transactionId = some t)
    (haccount : db.accounts.find? t.accountId = some account) {balance : Int}
    {data : OutboxEventData} {rest : Process Unit} :
    Tx.Always Database.InRange
        (Tx.query (Sql.updateAccountBalance t.accountId balance) >>= fun _ ↦
          Tx.query (Sql.updateTransactionStatus t.transactionId .BLOCKED) >>= fun _ ↦
            Tx.query (Sql.createOutboxEvent data) >>= fun _ ↦ .commit rest) id db ↔
      Fits balance ∧ ∀ env : Env Supply, db.outboxEvents.find? env.supply.id = none →
        Tx.Always Database.InRange rest id
          (((db.setBalance t.accountId balance).setStatus t.transactionId .BLOCKED).addOutboxEvent
            (data.row env.supply.id env.now)) := by
  constructor
  · intro h
    refine ⟨?_, fun env hnew ↦ ?_⟩
    · exact Database.fits_of_setBalance haccount (Tx.always_bind.mp h ⟨0, ⟨"", []⟩⟩).1
    · have h := h.of_result (b := ()) env (by simp [Sql.updateAccountBalance, haccount])
      have h := h.of_result (b := ()) env (by simp [Sql.updateTransactionStatus,
        Sql.updateAccountBalance, ht])
      exact h.of_result (b := ()) env (by simp [Sql.createOutboxEvent,
        Sql.updateTransactionStatus, Sql.updateAccountBalance, hnew])
  · rintro ⟨hfits, hrest⟩
    have hafter := hdb.setBalance t.accountId hfits
    refine Tx.always_bind.mpr fun _ ↦ ⟨hafter, fun _ _ ↦ ?_⟩
    refine Tx.always_bind.mpr fun _ ↦ ⟨hafter.setStatus _ _, fun _ _ ↦ ?_⟩
    refine Tx.always_bind.mpr fun env ↦ ⟨(hafter.setStatus _ _).addOutboxEvent _, fun _ hr ↦ ?_⟩
    have hnew := Sql.createOutboxEvent_result hr
    exact hrest env hnew

/-- A restored balance that is not negative fits unless a debit exceeds the range. -/
theorem fits_restoredBalance (hdb : db.InRange) {t : Transaction} {account : Account}
    (ht : db.transactions.find? t.transactionId = some t)
    (haccount : db.accounts.find? t.accountId = some account)
    (hnonneg : ¬ Finalization.restoredBalance t.type account.balance t.amount < 0) :
    Fits (Finalization.restoredBalance t.type account.balance t.amount) ↔
      ¬ (t.type = .DEBIT ∧ maxBigInt < account.balance + t.amount) := by
  obtain ⟨-, hbalance⟩ := hdb.balances account (Table.mem_of_find? haccount)
  obtain ⟨hamount, -⟩ := hdb.amounts t (Table.mem_of_find? ht)
  cases htype : t.type with
  | DEBIT =>
    rw [htype] at hnonneg
    simp only [Fits, Finalization.restoredBalance, true_and] at hnonneg ⊢
    omega
  | CREDIT =>
    rw [htype] at hnonneg
    simp only [Fits, Finalization.restoredBalance, reduceCtorEq, false_and, not_false_eq_true,
      iff_true] at hnonneg ⊢
    omega

/-- The transaction for a candidate writes values that fit, and so does the rest of the scan after
it, exactly if its reversal does not exceed the range. -/
theorem always_compensateInTransaction (hdb : db.InRange) {candidate : String}
    {rest : Process Unit} :
    Tx.Always Database.InRange
        (Finalization.compensateInTransaction candidate >>= fun _ ↦ .commit rest) id db ↔
      ¬ ReversalExceeds candidate db ∧ ∀ env db', reversed env candidate db = some db' →
        Tx.Always Database.InRange rest id db' := by
  rw [Finalization.compensateInTransaction, Tx.bind_assoc, Tx.always_select_iff
    (b := (db.transactions.find? candidate).filter (fun t ↦ t.status = .COMPLETED))
    (fun _ ↦ rfl) hdb fun _ ↦ rfl]
  have hskip : (∀ env, reversed env candidate db = some db) → ¬ ReversalExceeds candidate db →
      (Tx.Always Database.InRange (.commit rest) id db ↔
        ¬ ReversalExceeds candidate db ∧ ∀ env db', reversed env candidate db = some db' →
          Tx.Always Database.InRange rest id db') := by
    intro hreversed hnot
    simp only [hreversed, Option.some.injEq, forall_eq', hnot, not_false_eq_true, true_and]
    exact ⟨fun h _ ↦ h, fun h ↦ h ⟨0, Classical.ofNonempty⟩⟩
  cases hselected : (db.transactions.find? candidate).filter (fun t ↦ t.status = .COMPLETED) with
  | none =>
    refine hskip (fun env ↦ by simp [reversed, hselected]) ?_
    rintro ⟨t, -, ht, hstatus, -⟩
    simp [ht, hstatus] at hselected
  | some t =>
    obtain ⟨ht, hstatus⟩ := Option.filter_eq_some_iff.mp hselected
    obtain rfl : t.transactionId = candidate := Table.key_of_find? ht
    dsimp only
    rw [Tx.bind_assoc, Tx.always_select_iff (b := db.ledgerEntries.find? t.transactionId)
      (fun _ ↦ rfl) hdb fun _ ↦ rfl]
    cases hentry : db.ledgerEntries.find? t.transactionId with
    | some _ =>
      refine hskip (fun env ↦ by simp [reversed, hselected, hentry]) ?_
      rintro ⟨_, _, _, _, hnone, _⟩
      rw [hentry] at hnone
      cases hnone
    | none =>
      dsimp only
      rw [Tx.bind_assoc, Tx.always_select_iff
        (b := (db.accounts.find? t.accountId).map Account.balance) (fun _ ↦ rfl) hdb fun _ ↦ rfl]
      cases haccount : db.accounts.find? t.accountId with
      | none =>
        refine iff_of_true trivial ⟨?_, fun env db' h ↦ ?_⟩
        · rintro ⟨t', account, ht', -, -, haccount', -⟩
          rw [ht] at ht'
          cases ht'
          rw [haccount] at haccount'
          cases haccount'
        · simp [reversed, hselected, hentry, haccount] at h
      | some account =>
        have hexceeds : ReversalExceeds t.transactionId db ↔
            t.type = .DEBIT ∧ maxBigInt < account.balance + t.amount := by
          constructor
          · rintro ⟨t', account', ht', -, -, haccount', hexceeds⟩
            rw [ht] at ht'
            cases ht'
            rw [haccount] at haccount'
            cases haccount'
            exact hexceeds
          · exact fun h ↦ ⟨t, account, ht, of_decide_eq_true hstatus, hentry, haccount, h⟩
        dsimp only [Option.map_some]
        split
        · next hnegative =>
          refine hskip (fun env ↦ by simp [reversed, hselected, hentry, haccount, hnegative]) ?_
          rw [hexceeds]
          rintro ⟨htype, hexceeds⟩
          rw [htype] at hnegative
          simp only [Finalization.restoredBalance, maxBigInt] at hnegative hexceeds
          omega
        · next hnonneg =>
          simp only [Tx.bind_assoc]
          rw [always_reverse hdb ht haccount, fits_restoredBalance hdb ht haccount hnonneg,
            hexceeds]
          refine and_congr_right fun _ ↦ forall_congr' fun env ↦ ?_
          simp only [reversed, hselected, hentry, haccount, hnonneg, if_false]
          constructor
          · intro h db' hdb'
            split at hdb'
            · next hnew =>
              cases hdb'
              exact h (Option.isNone_iff_eq_none.mp hnew)
            · cases hdb'
          · exact fun h hnew ↦ h _ (if_pos (Option.isNone_iff_eq_none.mpr hnew))

/-- A reversal that does not exceed the range leaves values that fit. -/
private theorem inRange_reversed (hdb : db.InRange) {candidate : String} {env : Env Supply}
    {db' : Database} (hnot : ¬ ReversalExceeds candidate db)
    (h : reversed env candidate db = some db') : db'.InRange := by
  unfold reversed at h
  split at h
  · cases h
    exact hdb
  · next t hselected =>
    obtain ⟨ht, hstatus⟩ := Option.filter_eq_some_iff.mp hselected
    obtain rfl : t.transactionId = candidate := Table.key_of_find? ht
    split at h
    · cases h
      exact hdb
    · next hentry =>
      split at h
      · cases h
      · next account haccount =>
        dsimp only at h
        split at h
        · cases h
          exact hdb
        · next hnonneg =>
          split at h
          · cases h
            have hfits := (fits_restoredBalance hdb ht haccount hnonneg).mpr fun hexceeds ↦
              hnot ⟨t, account, ht, of_decide_eq_true hstatus, hentry, haccount, hexceeds⟩
            exact ((hdb.setBalance _ hfits).setStatus _ _).addOutboxEvent _
          · cases h

/-- The transactions of a scan write values that fit exactly if no reversal exceeds the range. -/
theorem always_compensateEach (candidates : List String) (hdb : db.InRange) :
    Tx.Always Database.InRange (Finalization.compensateEach candidates) id db ↔
      Spared candidates db := by
  induction candidates generalizing db with
  | nil => exact Iff.rfl
  | cons candidate rest ih =>
    rw [Finalization.compensateEach, Tx.transaction_bind, always_compensateInTransaction hdb,
      Spared]
    refine and_congr_right fun hnot ↦ forall_congr' fun env ↦ forall_congr' fun db' ↦ ?_
    exact imp_congr_right fun h ↦ ih (inRange_reversed hdb hnot h)

/-- A scan that reads the clock at `now` may pick the candidates. -/
def Picks (d : Deployment) (db : Database) (candidates : List String) : Prop :=
  ∃ (now : Date) (env : Env Supply), (Sql.findTimedOut
    (now - d.config.TRANSACTION_FINALIZATION_TIMEOUT_SECONDS * 1000) 50).result env db =
      some candidates

/-- A scan writes values that fit exactly if no reversal that it may pick exceeds the range. -/
theorem always_timeoutScan (hdb : db.InRange) :
    Tx.Always Database.InRange (Finalization.compensateTimedOutTransactions d) id db ↔
      ∀ candidates, Picks d db candidates → Spared candidates db := by
  unfold Finalization.compensateTimedOutTransactions
  constructor
  · rintro h candidates ⟨now, env, hpicked⟩
    have h := h.of_select ⟨now, env.supply⟩ rfl rfl
    have h := h.of_select env rfl hpicked
    exact (always_compensateEach candidates hdb).mp h
  · intro h
    refine Tx.always_read Sql.now_reads hdb fun env now hnow ↦ ?_
    refine Tx.always_read (Sql.findTimedOut_reads _ _) hdb fun env' candidates hpicked ↦ ?_
    exact (always_compensateEach candidates hdb).mpr (h candidates ⟨now, env', hpicked⟩)

end Reversal

/-- While only the process of a request executes, it sees values that fit, unless the request is a
credit that exceeds the range. -/
theorem inRange_of_run {s s' : SystemState} {i : Nat} {actions : List SystemAction}
    {born : Database} {program program' : Process Reply} {pending : Database → Database}
    (honly : Relational.OnlyExecutes i actions)
    (hbegins : begins d (.create input request) s.db = some program)
    (hi : s.session i = some ⟨.create input request, born, .running program id⟩)
    (hdb : s.db.InRange) (hnot : ¬ CreditExceeds input request s.db)
    (h : Relational.run (begins d) s actions = some s')
    (hi' : s'.session i = some ⟨.create input request, born, .running program' pending⟩) :
    (pending s'.db).InRange := by
  cases hbegins
  have halways := (Tx.always_map Reply.transaction _).mpr ((always_create (d := d) hdb).mpr hnot)
  exact Relational.always_of_run honly hi hdb halways h hi'

/-- From a database whose balances and amounts fit, a request and a timeout scan write values that
fit, whatever identifiers are generated, whenever they run and whichever candidates are picked
first, exactly if the request is not a credit that exceeds the range, and the scan picks no debit
whose reversal does. -/
theorem writes_fit_iff (d : Deployment) (db : Database) (hdb : db.InRange) :
    (∀ (input : CreateTransactionInput) (request : Request),
      Tx.Always Database.InRange (create d input request) id db ↔
        ¬ CreditExceeds input request db) ∧
    (Tx.Always Database.InRange (Finalization.compensateTimedOutTransactions d) id db ↔
      ∀ candidates, Picks d db candidates → Spared candidates db) :=
  ⟨fun _ _ ↦ always_create hdb, always_timeoutScan hdb⟩

namespace Sample

/-- A credit of 2 ^ 63 minor units. -/
def hugeCredit : CreateTransactionInput :=
  { Sample.input with
    type := .CREDIT
    amountMinor := 9223372036854775808
    amountMinor_pos := by decide }

/-- The request of an administrator. -/
def creditRequest : Request := ⟨some ⟨"admin-1", .ADMIN⟩, none, none⟩

private theorem inRange_opening : (Database.opening accounts).InRange where
  balances := by decide
  amounts := by simp [Database.opening]

/-- A credit of an administrator leaves the range. -/
theorem hugeCredit_leaves_range : (Database.opening accounts).InRange ∧
    ¬ Tx.Always Database.InRange (create deployment hugeCredit creditRequest) id
      (Database.opening accounts) := by
  refine ⟨inRange_opening, fun h ↦ (always_create inRange_opening).mp h ?_⟩
  exact ⟨⟨"admin-1", .ADMIN⟩, ⟨accountId, "user-1", 100, .ACTIVE, none, 0, none⟩, rfl, rfl, rfl,
    rfl, rfl, by decide⟩

/-- A credit of twenty or twenty-one minor units. -/
def limitCredit (more : Bool) : CreateTransactionInput :=
  { Sample.input with
    transactionId := "txn-3"
    type := .CREDIT
    amountMinor := if more then 21 else 20
    amountMinor_pos := by cases more <;> decide
    transactionId_trimmed := by decide
    transactionId_length := by decide }

/-- The account has room for twenty minor units, and ten have been debited from it. -/
def nearlyFull : Database :=
  { Database.opening ⟨[⟨accountId, "user-1", maxBigInt - 20, .ACTIVE, none, 0, none⟩],
      by decide⟩ with
    transactions := ⟨[⟨"row-1", "txn-1", accountId, .DEBIT, 10, .COMPLETED, some 0, 0⟩],
      by decide⟩ }

private theorem inRange_nearlyFull : nearlyFull.InRange where
  balances := by decide
  amounts := by decide

/-- A scan leaves a database alone in which nothing is completed. -/
private theorem spared_of_settled {db : Database} (candidates : List String)
    (h : ∀ t ∈ db.transactions.rows, t.status ≠ .COMPLETED) : Spared candidates db := by
  induction candidates with
  | nil => exact trivial
  | cons candidate rest ih =>
    refine ⟨fun ⟨t, _, ht, hstatus, _⟩ ↦ h t (Table.mem_of_find? ht) hstatus, ?_⟩
    intro env db' hreversed
    have hnone : (db.transactions.find? candidate).filter (fun t ↦ t.status = .COMPLETED) = none :=
      Option.filter_eq_none_iff.mpr fun t ht ↦ by simpa using h t (Table.mem_of_find? ht)
    simp only [reversed, hnone, Option.some.injEq] at hreversed
    exact hreversed ▸ ih

/-- A scan can give the ten minor units back. -/
private theorem spared_nearlyFull (candidates : List String) : Spared candidates nearlyFull := by
  induction candidates with
  | nil => exact trivial
  | cons candidate rest ih =>
    by_cases hcandidate : candidate = "txn-1"
    · subst hcandidate
      refine ⟨?_, fun env db' hreversed ↦ spared_of_settled rest ?_⟩
      · rintro ⟨t, account, ht, -, -, haccount, -, hexceeds⟩
        cases ht
        cases haccount
        exact absurd hexceeds (by decide)
      · have hresult : reversed env "txn-1" nearlyFull =
            if (nearlyFull.outboxEvents.find? env.supply.id).isNone then
              some (((nearlyFull.setBalance accountId (maxBigInt - 10)).setStatus "txn-1"
                .BLOCKED).addOutboxEvent ((Finalization.compensatedEvent
                  ⟨"row-1", "txn-1", accountId, .DEBIT, 10, .COMPLETED, some 0, 0⟩
                  (maxBigInt - 10)).row env.supply.id env.now))
            else none := rfl
        rw [hresult, Option.ite_none_right_eq_some] at hreversed
        obtain ⟨-, hreversed⟩ := hreversed
        cases hreversed
        change ∀ t ∈ (nearlyFull.setStatus "txn-1" .BLOCKED).transactions.rows,
          t.status ≠ .COMPLETED
        decide
    · have hnone : nearlyFull.transactions.find? candidate = none := by
        refine Table.find?_eq_none.mpr fun t ht ↦ ?_
        obtain rfl := List.mem_singleton.mp ht
        exact Ne.symm hcandidate
      refine ⟨fun ⟨t, _, ht, _⟩ ↦ ?_, fun env db' hreversed ↦ ?_⟩
      · rw [hnone] at ht
        cases ht
      · simp only [reversed, hnone, Option.filter_none, Option.some.injEq] at hreversed
        exact hreversed ▸ ih

/-- Where there is room for twenty minor units, a debit, a credit of twenty and a scan stay in the
range, and a credit of twenty-one leaves it. -/
theorem writes_fit_iff_limit : nearlyFull.InRange ∧
    Tx.Always Database.InRange (create deployment Sample.input Sample.request) id nearlyFull ∧
    Tx.Always Database.InRange (create deployment (limitCredit false) creditRequest) id nearlyFull ∧
    ¬ Tx.Always Database.InRange (create deployment (limitCredit true) creditRequest) id
      nearlyFull ∧
    Tx.Always Database.InRange (Finalization.compensateTimedOutTransactions deployment) id
      nearlyFull := by
  obtain ⟨hrequest, hscan⟩ := writes_fit_iff deployment nearlyFull inRange_nearlyFull
  refine ⟨inRange_nearlyFull, (hrequest _ _).mpr ?_, (hrequest _ _).mpr ?_,
    fun h ↦ (hrequest _ _).mp h ?_, hscan.mpr fun candidates _ ↦ spared_nearlyFull candidates⟩
  · rintro ⟨-, -, -, -, -, htype, -⟩
    cases htype
  · rintro ⟨auth, account, -, hlive, -, -, -, hexceeds⟩
    cases hlive
    exact absurd hexceeds (by decide)
  · exact ⟨⟨"admin-1", .ADMIN⟩, ⟨accountId, "user-1", maxBigInt - 20, .ACTIVE, none, 0, none⟩, rfl,
      rfl, rfl, rfl, rfl, by decide⟩

end Sample

end Banking
